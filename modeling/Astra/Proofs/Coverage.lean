import Astra.Proofs.Controls
import Astra.Proofs.Partition

/-!
# Renderings cover their sources

A rendering writes the source again, with colors in between. This needs of the tokens no more than
that they follow one another up to the first one at the end of a text; they may reach beyond the
source. The tokens of a source always do, so a source can be read off its colored form.
-/

namespace Astra

namespace Text

theorem sliceFrom_ofNat (text : List Char) (start : Nat) : sliceFrom text start = text.drop start := by
  rw [sliceFrom]
  rw [clampIndex_ofNat, ← List.drop_eq_drop_min]

theorem slice_append {start middle stop : Int} (text : List Char) (natural : 0 ≤ start)
    (first : start ≤ middle) (second : middle ≤ stop) :
    slice text start middle ++ slice text middle stop = slice text start stop := by
  obtain ⟨a, rfl⟩ := Int.eq_ofNat_of_zero_le natural
  obtain ⟨b, rfl⟩ := Int.eq_ofNat_of_zero_le (Int.le_trans natural first)
  obtain ⟨c, rfl⟩ := Int.eq_ofNat_of_zero_le (Int.le_trans (Int.le_trans natural first) second)
  have hab : a ≤ b := Int.ofNat_le.mp first
  have hbc : b ≤ c := Int.ofNat_le.mp second
  have shorter : text.take b = (text.take c).take b := by rw [List.take_take, Nat.min_eq_left hbc]
  have rest : (text.take c).drop b = ((text.take c).drop a).drop (b - a) := by
    rw [List.drop_drop, Nat.add_sub_cancel' hab]
  rw [slice_ofNat, slice_ofNat, slice_ofNat, shorter, List.drop_take, rest, List.take_append_drop]

theorem slice_append_sliceFrom {start middle : Int} (text : List Char) (natural : 0 ≤ start)
    (first : start ≤ middle) :
    slice text start middle ++ sliceFrom text middle = sliceFrom text start := by
  obtain ⟨a, rfl⟩ := Int.eq_ofNat_of_zero_le natural
  obtain ⟨b, rfl⟩ := Int.eq_ofNat_of_zero_le (Int.le_trans natural first)
  have hab : a ≤ b := Int.ofNat_le.mp first
  have rest : text.drop b = (text.drop a).drop (b - a) := by
    rw [List.drop_drop, Nat.add_sub_cancel' hab]
  rw [slice_ofNat, sliceFrom_ofNat, sliceFrom_ofNat, List.drop_take, rest, List.take_append_drop]

theorem slice_whole (text : List Char) : slice text 0 text.length = text := by
  have whole := slice_ofNat text 0 text.length
  rwa [List.drop_zero, List.take_length] at whole

end Text

def Token.isEnd (token : Token) : Bool := token.category = .endOfText

/-- The tokens up to and including the first one at the end of a text. -/
def throughEnd : List Token → List Token
  | [] => []
  | token :: rest => if token.isEnd then [token] else token :: throughEnd rest

/-- Tokens with bounds that make sense, each of which begins where the one before it ends or later.
They may reach beyond a source. -/
structure Consecutive (tokens : List Token) : Prop where
  start_nonneg : ∀ token ∈ tokens, 0 ≤ token.start
  length_nonneg : ∀ token ∈ tokens, 0 ≤ token.length
  ordered : tokens.IsChain fun earlier later => earlier.stop ≤ later.start

/-- What tokens cover of a source: all of it before the first token at the end of a text. -/
def covered (source : List Char) (tokens : List Token) : List Char :=
  match tokens.find? Token.isEnd with
  | some last => Text.slice source 0 last.start
  | none => source

namespace Rendering

variable (source : List Char) (policy : Policy)

theorem ofTokensFrom_end {token : Token} (isEnd : token.isEnd = true) (position : Int)
    (tracker : Tracker) (rest : List Token) :
    ofTokensFrom source policy position tracker (token :: rest) =
      ⟨[.raw (Text.slice source position token.start)], overlapNotes position token⟩ := by
  rw [ofTokensFrom, if_pos (of_decide_eq_true isEnd)]

theorem ofTokensFrom_token {token : Token} (notEnd : token.isEnd = false) (position : Int)
    (tracker : Tracker) (rest : List Token) :
    ofTokensFrom source policy position tracker (token :: rest) =
      let resolved := resolve policy tracker token
      let later := ofTokensFrom source policy token.stop resolved.2.1 rest
      ⟨.raw (Text.slice source position token.start) ::
        .painted resolved.1 (token.text source) :: later.spans,
        overlapNotes position token ++ resolved.2.2 ++ later.notes⟩ := by
  rw [ofTokensFrom, if_neg (of_decide_eq_false notEnd)]

/-- What comes after the first token at the end of a text does not matter. -/
theorem ofTokensFrom_throughEnd (position : Int) (tracker : Tracker) (tokens : List Token) :
    ofTokensFrom source policy position tracker (throughEnd tokens) =
      ofTokensFrom source policy position tracker tokens := by
  induction tokens generalizing position tracker with
  | nil => rfl
  | cons token rest ih =>
    cases isEnd : token.isEnd with
    | true =>
      rw [throughEnd, if_pos isEnd, ofTokensFrom_end source policy isEnd,
        ofTokensFrom_end source policy isEnd]
    | false =>
      rw [throughEnd, if_neg (Bool.not_eq_true _ ▸ isEnd), ofTokensFrom_token source policy isEnd,
        ofTokensFrom_token source policy isEnd]
      simp only [ih]

end Rendering

section Following

/-- Tokens that follow on a position, up to the first one at the end of a text. -/
def Follows (position : Int) (tokens : List Token) : Prop :=
  0 ≤ position ∧ Consecutive (throughEnd tokens) ∧
    ∀ first ∈ (throughEnd tokens).head?, position ≤ first.start

theorem Follows.of_consecutive {tokens : List Token} (consecutive : Consecutive (throughEnd tokens)) :
    Follows 0 tokens := by
  refine ⟨Int.le_refl 0, consecutive, ?_⟩
  intro first member
  exact consecutive.start_nonneg first (List.mem_of_mem_head? member)

variable {position : Int} {token : Token} {rest : List Token}

theorem Follows.head (follows : Follows position (token :: rest)) :
    position ≤ token.start ∧ 0 ≤ token.length := by
  obtain ⟨_, consecutive, first⟩ := follows
  have head : (throughEnd (token :: rest)).head? = some token := by
    rw [throughEnd]
    split <;> rfl
  exact ⟨first token head, consecutive.length_nonneg token (List.mem_of_mem_head? head)⟩

theorem Follows.tail (follows : Follows position (token :: rest)) (notEnd : token.isEnd = false) :
    Follows token.stop rest := by
  obtain ⟨start, length⟩ := follows.head
  obtain ⟨natural, consecutive, _⟩ := follows
  have whole : throughEnd (token :: rest) = token :: throughEnd rest := by
    rw [throughEnd, if_neg (Bool.not_eq_true _ ▸ notEnd)]
  rw [whole] at consecutive
  obtain ⟨follow, ordered⟩ := List.isChain_cons.mp consecutive.ordered
  refine ⟨?_, ⟨?_, ?_, ordered⟩, follow⟩
  · rw [Token.stop]
    omega
  · exact fun other member => consecutive.start_nonneg other (List.mem_cons_of_mem token member)
  · exact fun other member => consecutive.length_nonneg other (List.mem_cons_of_mem token member)

theorem Follows.le_end {tokens : List Token} {last : Token} (follows : Follows position tokens)
    (found : tokens.find? Token.isEnd = some last) : position ≤ last.start := by
  induction tokens generalizing position with
  | nil => cases found
  | cons token rest ih =>
    obtain ⟨start, length⟩ := follows.head
    cases isEnd : token.isEnd with
    | true =>
      rw [List.find?_cons_of_pos isEnd] at found
      cases found
      exact start
    | false =>
      rw [List.find?_cons_of_neg (Bool.not_eq_true _ ▸ isEnd)] at found
      have later := ih (follows.tail isEnd) found
      unfold Token.stop at later
      omega

end Following

namespace Rendering

variable (source : List Char) (policy : Policy)

/-- The texts of the spans are the source from a position on, up to the first token at the end of a
text. -/
theorem ofTokensFrom_text {position : Int} {tokens : List Token} (follows : Follows position tokens)
    (tracker : Tracker) :
    (ofTokensFrom source policy position tracker tokens).spans.flatMap Span.text =
      match tokens.find? Token.isEnd with
      | some last => Text.slice source position last.start
      | none => Text.sliceFrom source position := by
  induction tokens generalizing position tracker with
  | nil => exact List.append_nil _
  | cons token rest ih =>
    obtain ⟨start, length⟩ := follows.head
    have natural := follows.1
    cases isEnd : token.isEnd with
    | true =>
      rw [ofTokensFrom_end source policy isEnd, List.find?_cons_of_pos isEnd]
      exact List.append_nil _
    | false =>
      have tail := follows.tail isEnd
      have forward : token.start ≤ token.stop := by
        rw [Token.stop]
        omega
      rw [ofTokensFrom_token source policy isEnd,
        List.find?_cons_of_neg (Bool.not_eq_true _ ▸ isEnd)]
      show Text.slice source position token.start ++ (Text.slice source token.start token.stop ++
        (ofTokensFrom source policy token.stop _ rest).spans.flatMap Span.text) = _
      rw [ih tail, ← List.append_assoc, Text.slice_append source natural start forward]
      have reaches : position ≤ token.stop := Int.le_trans start forward
      cases found : rest.find? Token.isEnd with
      | some last => exact Text.slice_append source natural reaches (tail.le_end found)
      | none => exact Text.slice_append_sliceFrom source natural reaches

theorem resolve_notes (tracker : Tracker) (token : Token) :
    ∀ note ∈ (resolve policy tracker token).2.2, ∃ scope, note = .mismatch token scope := by
  rw [resolve]
  cases token.role with
  | opener =>
    dsimp only
    split <;> simp
  | closer =>
    dsimp only
    split <;> simp
  | plain => simp

theorem ofTokensFrom_no_overlap {position : Int} {tokens : List Token}
    (follows : Follows position tokens) (tracker : Tracker) (token : Token) (place : Int) :
    Note.overlap token place ∉ (ofTokensFrom source policy position tracker tokens).notes := by
  induction tokens generalizing position tracker with
  | nil => exact List.not_mem_nil
  | cons first rest ih =>
    have quiet : overlapNotes position first = [] := if_neg (by have := follows.head.1; omega)
    cases isEnd : first.isEnd with
    | true =>
      rw [ofTokensFrom_end source policy isEnd, quiet]
      exact List.not_mem_nil
    | false =>
      rw [ofTokensFrom_token source policy isEnd, quiet]
      intro member
      rcases List.mem_append.mp member with hresolve | hlater
      · obtain ⟨scope, impossible⟩ := resolve_notes policy tracker first _ hresolve
        cases impossible
      · exact ih (follows.tail isEnd) _ hlater

theorem ofTokensFrom_inRange {policy : Policy} (proper : policy.InRange) (position : Int)
    (tracker : Tracker) (tokens : List Token) :
    ∀ span ∈ (ofTokensFrom source policy position tracker tokens).spans, span.InRange := by
  induction tokens generalizing position tracker with
  | nil =>
    intro span member
    rw [List.mem_singleton.mp member]
    trivial
  | cons token rest ih =>
    cases isEnd : token.isEnd with
    | true =>
      intro span member
      rw [ofTokensFrom_end source policy isEnd] at member
      rw [List.mem_singleton.mp member]
      trivial
    | false =>
      intro span member
      rw [ofTokensFrom_token source policy isEnd] at member
      rcases List.mem_cons.mp member with rfl | member
      · trivial
      · rcases List.mem_cons.mp member with rfl | member
        · exact Policy.resolve_inRange proper tracker token
        · exact ih _ _ span member

/-- A rendering of tokens that follow one another covers the source up to their end. -/
theorem ofTokens_text {tokens : List Token} (consecutive : Consecutive (throughEnd tokens)) :
    (ofTokens source tokens policy).spans.flatMap Span.text = covered source tokens := by
  have text := ofTokensFrom_text source policy (.of_consecutive consecutive) {}
  rw [ofTokens, text, covered]
  cases tokens.find? Token.isEnd with
  | some last => rfl
  | none => exact Text.sliceFrom_ofNat source 0

end Rendering

section Sources

open Lexing

theorem throughEnd_eq_self {tokens : List Token} (lexemes : ∀ token ∈ tokens, token.isEnd = false) :
    throughEnd tokens = tokens := by
  induction tokens with
  | nil => rfl
  | cons token rest ih =>
    have first := lexemes token List.mem_cons_self
    rw [throughEnd, if_neg (Bool.not_eq_true _ ▸ first),
      ih fun other member => lexemes other (List.mem_cons_of_mem token member)]

theorem throughEnd_append_end {tokens : List Token} {last : Token} (isEnd : last.isEnd = true)
    (lexemes : ∀ token ∈ tokens, token.isEnd = false) :
    throughEnd (tokens ++ [last]) = tokens ++ [last] := by
  induction tokens with
  | nil => exact if_pos isEnd
  | cons token rest ih =>
    have first := lexemes token List.mem_cons_self
    rw [List.cons_append, throughEnd, if_neg (Bool.not_eq_true _ ▸ first),
      ih fun other member => lexemes other (List.mem_cons_of_mem token member)]

variable (source : List Char)

theorem lexeme_isEnd : ∀ token ∈ tokensFrom 0 (scan source).pieces, token.isEnd = false :=
  fun token member => decide_eq_false (lexeme_not_endOfText source token member).2

theorem throughEnd_tokens : throughEnd (tokens source) = tokens source := by
  rcases tokens_cases source with ⟨_, htokens⟩ | ⟨_, htokens⟩
  · rw [htokens]
    exact throughEnd_eq_self (lexeme_isEnd source)
  · rw [htokens]
    exact throughEnd_append_end rfl (lexeme_isEnd source)

theorem tokens_consecutive : Consecutive (throughEnd (tokens source)) := by
  have bounds : ∀ token ∈ tokens source, 0 ≤ token.start ∧ 0 ≤ token.length := by
    have lexeme : ∀ token ∈ tokensFrom 0 (scan source).pieces,
        0 ≤ token.start ∧ 0 ≤ token.length := by
      intro token member
      have positive := (lexeme_not_endOfText source token member).1
      exact ⟨(tokensFrom_bounds member).1, by omega⟩
    intro token member
    rcases tokens_cases source with ⟨_, htokens⟩ | ⟨_, htokens⟩
    · exact lexeme token (htokens ▸ member)
    · rw [htokens, List.mem_append, List.mem_singleton] at member
      rcases member with member | rfl
      · exact lexeme token member
      · exact ⟨Int.natCast_nonneg _, Int.le_refl 0⟩
  rw [throughEnd_tokens]
  exact ⟨fun token member => (bounds token member).1, fun token member => (bounds token member).2,
    (tokens_ordered source).isChain⟩

theorem covered_tokens : covered source (tokens source) = source := by
  have quiet : (tokensFrom 0 (scan source).pieces).find? Token.isEnd = none := by
    rw [List.find?_eq_none]
    intro token member
    rw [lexeme_isEnd source token member]
    exact Bool.false_ne_true
  rw [covered]
  rcases tokens_cases source with ⟨_, htokens⟩ | ⟨_, htokens⟩
  · rw [htokens, quiet]
  · rw [htokens, List.find?_append, quiet]
    exact Text.slice_whole source

end Sources

/-- A rendering is made of raw and of painted texts. When tokens follow one another, these texts
are the source up to the first token at its end, no overlap is noted, and later tokens do not
matter. The colored form of a source always covers all of it, and deleting the control sequences
from it gives the source back. -/
theorem rendering_covers_source {table : List (List Char × Candidate)} {overrides : Overrides}
    (parsed : Overrides.read table = .ok overrides) (source : List Char) :
    (∀ tokens : List Token, Consecutive (throughEnd tokens) →
      let rendering := Rendering.ofTokens source tokens (Policy.standard.override overrides)
      rendering.write = rendering.spans.flatMap Span.write ∧
      rendering.spans.flatMap Span.text = covered source tokens ∧
      (∀ token position, Note.overlap token position ∉ rendering.notes) ∧
      ∀ later, throughEnd later = throughEnd tokens →
        Rendering.ofTokens source later (Policy.standard.override overrides) = rendering) ∧
    (∃ spans : List Span,
      colorize source (Policy.standard.override overrides) = spans.flatMap Span.write ∧
      spans.flatMap Span.text = source) ∧
    ('\x1b' ∉ source →
      stripControls (colorize source (Policy.standard.override overrides)) = source) := by
  have whole : (Rendering.ofTokens source (Lexing.tokenize source).tokens
      (Policy.standard.override overrides)).spans.flatMap Span.text = source := by
    rw [Lexing.tokenize_tokens, Rendering.ofTokens_text source _ (tokens_consecutive source),
      covered_tokens]
  refine ⟨?_, ⟨_, rfl, whole⟩, ?_⟩
  · intro tokens consecutive
    refine ⟨rfl, Rendering.ofTokens_text source _ consecutive, ?_, ?_⟩
    · intro token position
      exact Rendering.ofTokensFrom_no_overlap source _ (.of_consecutive consecutive) {} token position
    · intro later same
      rw [Rendering.ofTokens, ← Rendering.ofTokensFrom_throughEnd, same,
        Rendering.ofTokensFrom_throughEnd, Rendering.ofTokens]
  · intro plain
    have proper := Policy.inRange_of_read parsed
    have stripped := stripControls_write
      (Rendering.ofTokensFrom_inRange source proper 0 {} (Lexing.tokenize source).tokens)
      (show Rgb.escape ∉ _ from whole.symm ▸ plain)
    exact stripped.trans whole

/-- Tokens that reach beyond the source, and one that lies before them but comes after the end. -/
theorem rendering_covers_source_beyond_end :
    let table := [("word".toList, Candidate.text "red".toList)]
    let overrides : Overrides := [(.word, ⟨128, 0, 0⟩)]
    let source := "a bc".toList
    let tokens : List Token := [⟨.word, 0, 1⟩, ⟨.word, 2, 9⟩, ⟨.endOfText, 12, 0⟩, ⟨.dot, 0, 1⟩]
    Overrides.read table = .ok overrides ∧ Consecutive (throughEnd tokens) ∧ '\x1b' ∉ source ∧
    (Rendering.ofTokens source tokens (Policy.standard.override overrides)).spans.flatMap Span.text =
      source ∧
    stripControls (colorize source (Policy.standard.override overrides)) = source := by
  intro table overrides source tokens
  have parsed : Overrides.read table = .ok overrides := by decide +kernel
  have consecutive : Consecutive (throughEnd tokens) := ⟨by decide, by decide, by decide⟩
  have plain : '\x1b' ∉ source := by decide
  have covers := rendering_covers_source parsed source
  refine ⟨parsed, consecutive, plain, ?_, covers.2.2 plain⟩
  rw [(covers.1 tokens consecutive).2.1]
  decide

end Astra
