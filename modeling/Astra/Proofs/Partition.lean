import Mathlib.Data.List.Chain
import Astra.Proofs.Scanning

/-!
# Tokens, blanks and skipped characters

The tokens of a source lie one after the other, and what they leave free is accounted for: up to
the place where a scan stops, every character is in one token, or is a blank, or is complained
about. Diagnostics are told apart by their messages, as a reader of them would do.
-/

namespace Astra

namespace Diagnostic

def isNul (d : Diagnostic) : Bool := d.message == "NUL character in source".toList

def isUnterminated (d : Diagnostic) : Bool := "unterminated ".toList.isPrefixOf d.message

/-- Whether a diagnostic says that a character was skipped. -/
def isSkip (d : Diagnostic) : Bool :=
  "unexpected character ".toList.isPrefixOf d.message ||
    d.message == "unexpected end of input after '\\'".toList

end Diagnostic

/-- Whether a character is a part of a token. -/
def Token.covers (token : Token) (i : Nat) : Bool := decide (token.start ≤ i ∧ i < token.stop)

theorem Token.covers_iff {token : Token} {i : Nat} :
    token.covers i = true ↔ token.start ≤ i ∧ i < token.start + token.length :=
  decide_eq_true_iff

namespace Lexing

@[simp]
theorem tokenize_source (source : List Char) : (tokenize source).source = source := by
  rw [tokenize, Outcome.ofDiagnostics]
  split <;> rfl

@[simp]
theorem tokenize_tokens (source : List Char) : (tokenize source).tokens = tokens source := by
  rw [tokenize, Outcome.ofDiagnostics]
  split <;> rfl

@[simp]
theorem tokenize_diagnostics (source : List Char) :
    (tokenize source).diagnostics = (findings source).map (Finding.diagnostic source) := by
  rw [tokenize, Outcome.ofDiagnostics]
  split
  · rfl
  · rename_i empty
    exact (Decidable.not_not.mp empty).symm

section Messages

/-- Whether a complaint is about a character that belongs to no token. -/
def Complaint.isSkip : Complaint → Bool
  | stray _ => true
  | danglingEscape => true
  | _ => false

def Complaint.isUnterminated : Complaint → Bool
  | unterminated _ => true
  | _ => false

variable (source : List Char) (finding : Finding)

theorem Finding.diagnostic_isNul :
    (finding.diagnostic source).isNul = decide (finding.complaint = .nul) := by
  show (finding.complaint.message == _) = _
  cases finding.complaint with
  | nul => rfl
  | stray c => rfl
  | danglingEscape => rfl
  | unterminated enclosure => cases enclosure <;> rfl

theorem Finding.diagnostic_isUnterminated :
    (finding.diagnostic source).isUnterminated = finding.complaint.isUnterminated := by
  show List.isPrefixOf _ finding.complaint.message = _
  cases finding.complaint with
  | nul => rfl
  | stray c => rfl
  | danglingEscape => rfl
  | unterminated enclosure => cases enclosure <;> rfl

theorem Finding.diagnostic_isSkip :
    (finding.diagnostic source).isSkip = finding.complaint.isSkip := by
  show (List.isPrefixOf _ finding.complaint.message || finding.complaint.message == _) = _
  cases finding.complaint with
  | nul => rfl
  | stray c =>
    have begins : "unexpected character ".toList.isPrefixOf (Complaint.stray c).message = true :=
      List.isPrefixOf_iff_prefix.mpr (List.prefix_append _ _)
    exact Bool.or_eq_true_iff.mpr (.inl begins)
  | danglingEscape => rfl
  | unterminated enclosure => cases enclosure <;> rfl

end Messages

section Findings

/-- The finding about a piece at an offset; only skipped characters have one. -/
def Piece.findingsAt (offset : Nat) : Piece → List Finding
  | .stray c => [⟨.stray c, offset, 1⟩]
  | .danglingEscape => [⟨.danglingEscape, offset, 1⟩]
  | _ => []

theorem findingsFrom_eq_collect (offset : Nat) (pieces : List Piece) :
    findingsFrom offset pieces = collect Piece.findingsAt offset pieces := by
  induction pieces generalizing offset with
  | nil => rfl
  | cons piece rest ih =>
    cases piece with
    | stray c => exact congrArg (_ :: ·) (ih _)
    | danglingEscape => exact congrArg (_ :: ·) (ih _)
    | lexeme category text => exact ih _
    | blank c => exact ih _

theorem findingsFrom_append (offset : Nat) (before after : List Piece) :
    findingsFrom offset (before ++ after) =
      findingsFrom offset before ++ findingsFrom (offset + (textOf before).length) after := by
  simp only [findingsFrom_eq_collect, collect_append]

theorem mem_findingsAt {offset : Nat} {piece : Piece} {finding : Finding}
    (member : finding ∈ piece.findingsAt offset) :
    finding.complaint.isSkip = true ∧ finding.offset = offset ∧ finding.length = 1 ∧
      piece.text.length = 1 := by
  cases piece with
  | stray c =>
    cases List.mem_singleton.mp member
    exact ⟨rfl, rfl, rfl, rfl⟩
  | danglingEscape =>
    cases List.mem_singleton.mp member
    exact ⟨rfl, rfl, rfl, rfl⟩
  | lexeme category text => cases member
  | blank c => cases member

theorem findingsFrom_isSkip {offset : Nat} {pieces : List Piece} {finding : Finding}
    (member : finding ∈ findingsFrom offset pieces) : finding.complaint.isSkip = true := by
  rw [findingsFrom_eq_collect] at member
  obtain ⟨done, piece, later, _, given⟩ := mem_collect member
  exact (mem_findingsAt given).1

theorem findingsFrom_bound {offset : Nat} {pieces : List Piece} {finding : Finding}
    (member : finding ∈ findingsFrom offset pieces) :
    finding.offset ≤ offset + (textOf pieces).length := by
  rw [findingsFrom_eq_collect] at member
  obtain ⟨done, piece, later, rfl, given⟩ := mem_collect member
  have place := (mem_findingsAt given).2.1
  rw [textOf_append, List.length_append]
  omega

theorem Ending.findings_not_isSkip {ending : Ending} {length : Nat} {finding : Finding}
    (member : finding ∈ ending.findings length) : finding.complaint.isSkip = false := by
  cases ending with
  | complete => cases member
  | unterminated entered => cases List.mem_singleton.mp member; rfl
  | nul offset => cases List.mem_singleton.mp member; rfl

end Findings

section Stop

/-- The place where a scan stops, as the diagnostics tell it: at a NUL character, else at the end
of the source. -/
def stopOf (source : List Char) : Int :=
  match (tokenize source).diagnostics.find? Diagnostic.isNul with
  | some d => d.position.offset
  | none => source.length

theorem find?_isNul (source : List Char) :
    (tokenize source).diagnostics.find? Diagnostic.isNul =
      (((scan source).ending.findings source.length).find? (·.complaint = .nul)).map
        (Finding.diagnostic source) := by
  have message : Diagnostic.isNul ∘ Finding.diagnostic source =
      fun finding => decide (finding.complaint = .nul) :=
    funext (Finding.diagnostic_isNul source)
  have quiet : (findingsFrom 0 (scan source).pieces).find? (·.complaint = .nul) = none := by
    rw [List.find?_eq_none]
    intro finding member nul
    have skip := findingsFrom_isSkip member
    rw [of_decide_eq_true nul] at skip
    cases skip
  rw [tokenize_diagnostics, List.find?_map, message, findings, List.find?_append, quiet,
    Option.none_or]

theorem any_isNul_iff (source : List Char) :
    (tokenize source).diagnostics.any Diagnostic.isNul = true ↔
      ∃ offset, (scan source).ending = .nul offset := by
  rw [List.any_eq_true, ← List.find?_isSome, find?_isNul, Option.isSome_map]
  cases (scan source).ending with
  | complete => simp [Ending.findings]
  | unterminated entered => simp [Ending.findings]
  | nul offset => simp [Ending.findings]

theorem stopOf_eq (source : List Char) : stopOf source = (textOf (scan source).pieces).length := by
  obtain ⟨t, run, stops, whole, offset⟩ := scan_spec source
  have total : source.length = (textOf (scan source).pieces).length + t.ahead.length := by
    simpa using congrArg List.length whole
  rw [stopOf]
  rw [find?_isNul]
  rcases State.ending_cases stops with ⟨ending, ahead, _⟩ | ⟨entered, ending, ahead, _⟩ |
    ⟨ending, rest, _⟩
  · rw [ahead, List.length_nil] at total
    simp only [ending, Ending.findings, List.find?_nil, Option.map_none]
    omega
  · rw [ahead, List.length_nil] at total
    simp [ending, Ending.findings, total]
  · simp only [ending, Ending.findings, List.find?_cons, decide_true, Option.map_some,
      Finding.diagnostic, Position.ofOffset, offset]

end Stop

section Offsets

/-- The piece that a character of the text of pieces lies in. -/
theorem exists_piece_at {pieces : List Piece} {i : Nat} (inside : i < (textOf pieces).length) :
    ∃ done piece later, pieces = done ++ piece :: later ∧ (textOf done).length ≤ i ∧
      i < (textOf done).length + piece.text.length := by
  induction pieces generalizing i with
  | nil => simp at inside
  | cons piece rest ih =>
    by_cases first : i < piece.text.length
    · exact ⟨[], piece, rest, rfl, Nat.zero_le i, by simpa using first⟩
    · rw [textOf_cons, List.length_append] at inside
      have later : i - piece.text.length < (textOf rest).length := by omega
      obtain ⟨done, other, tail, hrest, low, high⟩ := ih later
      refine ⟨piece :: done, other, tail, by rw [hrest]; rfl, ?_, ?_⟩
      · rw [textOf_cons, List.length_append]
        omega
      · rw [textOf_cons, List.length_append]
        omega

/-- Only the piece that a character lies in gives anything about that character. -/
theorem countP_collect {α : Type} {give : Nat → Piece → List α} {about : α → Bool} {i : Nat}
    (near : ∀ offset piece item, item ∈ give offset piece → about item = true →
      offset ≤ i ∧ i < offset + piece.text.length)
    (done : List Piece) (piece : Piece) (later : List Piece) (low : (textOf done).length ≤ i)
    (high : i < (textOf done).length + piece.text.length) :
    (collect give 0 (done ++ piece :: later)).countP about =
      (give (textOf done).length piece).countP about := by
  have before : (collect give 0 done).countP about = 0 := by
    rw [List.countP_eq_zero]
    intro item member h
    obtain ⟨first, other, last, hdone, given⟩ := mem_collect member
    have bound := (near _ other item given h).2
    rw [hdone, textOf_append, textOf_cons] at low
    simp only [List.length_append] at low
    omega
  have after : (collect give ((textOf done).length + piece.text.length) later).countP about = 0 := by
    rw [List.countP_eq_zero]
    intro item member h
    obtain ⟨first, other, last, _, given⟩ := mem_collect member
    have bound := (near _ other item given h).1
    omega
  rw [collect_append, Nat.zero_add, collect, List.countP_append, List.countP_append, before, after,
    Nat.zero_add, Nat.add_zero]

theorem tokensAt_near (i offset : Nat) (piece : Piece) (token : Token)
    (member : token ∈ piece.tokensAt offset) (covered : token.covers i = true) :
    offset ≤ i ∧ i < offset + piece.text.length := by
  obtain ⟨category, text, rfl, rfl⟩ := mem_tokensAt member
  have bounds := Token.covers_iff.mp covered
  simp only [Piece.text] at bounds ⊢
  omega

/-- Whether a finding says that the character at an offset was skipped. -/
def Finding.skips (i : Nat) (finding : Finding) : Bool :=
  finding.complaint.isSkip && finding.offset == i

theorem findingsAt_near (i offset : Nat) (piece : Piece) (finding : Finding)
    (member : finding ∈ piece.findingsAt offset) (about : finding.skips i = true) :
    offset ≤ i ∧ i < offset + piece.text.length := by
  obtain ⟨_, same, _, single⟩ := mem_findingsAt member
  simp only [Finding.skips, Bool.and_eq_true, beq_iff_eq] at about
  omega

variable (source : List Char) (i : Nat)

/-- A character that lies in exactly one token. -/
def Inside : Prop := (tokenize source).tokens.countP (·.covers i) = 1

/-- A blank that lies in no token. -/
def Between : Prop :=
  (tokenize source).tokens.countP (·.covers i) = 0 ∧ (source[i]?).any Text.isBlank = true

/-- A character that lies in no token, is no blank, and is what exactly one diagnostic about a
skipped character is about. -/
def Skipped : Prop :=
  (tokenize source).tokens.countP (·.covers i) = 0 ∧
  (source[i]?).any (fun c => !Text.isBlank c) = true ∧
  (tokenize source).diagnostics.countP (fun d => d.isSkip && d.position.offset == (i : Int)) = 1

theorem countP_covers :
    (tokenize source).tokens.countP (·.covers i) =
      (collect Piece.tokensAt 0 (scan source).pieces).countP (·.covers i) := by
  have last : ((scan source).ending.tokens source.length).countP (·.covers i) = 0 := by
    rw [List.countP_eq_zero]
    intro token member covered
    have empty : token.length = 0 := by
      cases hending : (scan source).ending <;> rw [hending] at member <;>
        simp only [Ending.tokens, List.mem_singleton, List.not_mem_nil] at member
      all_goals rw [member]
    have bounds := Token.covers_iff.mp covered
    omega
  rw [tokenize_tokens, tokens, List.countP_append, last, Nat.add_zero, tokensFrom_eq_collect]

theorem countP_skips :
    (tokenize source).diagnostics.countP (fun d => d.isSkip && d.position.offset == (i : Int)) =
      (collect Piece.findingsAt 0 (scan source).pieces).countP (·.skips i) := by
  have same : (fun d : Diagnostic => d.isSkip && d.position.offset == (i : Int)) ∘
      Finding.diagnostic source = (·.skips i) := by
    funext finding
    have offset : (finding.diagnostic source).position.offset = finding.offset := rfl
    have casts : ((finding.offset : Int) == i) = (finding.offset == i) := by
      rw [Bool.eq_iff_iff, beq_iff_eq, beq_iff_eq, Int.natCast_inj]
    simp only [Function.comp, Finding.diagnostic_isSkip, offset, casts, Finding.skips]
  have last : ((scan source).ending.findings source.length).countP (·.skips i) = 0 := by
    rw [List.countP_eq_zero]
    intro finding member about
    simp only [Finding.skips, Ending.findings_not_isSkip member, Bool.false_and] at about
    cases about
  rw [tokenize_diagnostics, List.countP_map, same, findings, List.countP_append, last, Nat.add_zero,
    findingsFrom_eq_collect]

variable {source i}

/-- The piece that a character of a source lies in, and where the character stands in it. -/
theorem exists_piece_of_lt_stopOf (inside : (i : Int) < stopOf source) :
    ∃ done piece later, (scan source).pieces = done ++ piece :: later ∧
      (textOf done).length ≤ i ∧ i < (textOf done).length + piece.text.length ∧
      source[i]? = piece.text[i - (textOf done).length]? := by
  rw [stopOf_eq, Int.ofNat_lt] at inside
  obtain ⟨done, piece, later, hpieces, low, high⟩ := exists_piece_at inside
  obtain ⟨t, _, _, whole, _⟩ := scan_spec source
  refine ⟨done, piece, later, hpieces, low, high, ?_⟩
  rw [hpieces, textOf_append, textOf_cons, List.append_assoc, List.append_assoc] at whole
  rw [whole, List.getElem?_append_right low, List.getElem?_append_left (by omega)]

/-- A piece of one character is at the offset itself. -/
theorem single_at {done : List Piece} {piece : Piece} {c : Char} (spelled : piece.text = [c])
    (low : (textOf done).length ≤ i) (high : i < (textOf done).length + piece.text.length)
    (char : source[i]? = piece.text[i - (textOf done).length]?) :
    (textOf done).length = i ∧ source[i]? = some c := by
  rw [spelled, List.length_singleton] at high
  have same : (textOf done).length = i := by omega
  refine ⟨same, ?_⟩
  rw [char, spelled, same, Nat.sub_self]
  rfl

/-- The three ways in which a character can be accounted for, only one of which holds. -/
def Classified (source : List Char) (i : Nat) : Prop :=
  (Inside source i ∧ ¬ Between source i ∧ ¬ Skipped source i) ∨
  (¬ Inside source i ∧ Between source i ∧ ¬ Skipped source i) ∨
  (¬ Inside source i ∧ ¬ Between source i ∧ Skipped source i)

theorem Classified.inside (once : (tokenize source).tokens.countP (·.covers i) = 1) :
    Classified source i := by
  refine .inl ⟨once, ?_, ?_⟩
  · rintro ⟨free, _⟩
    omega
  · rintro ⟨free, _⟩
    omega

theorem Classified.between {c : Char} (free : (tokenize source).tokens.countP (·.covers i) = 0)
    (char : source[i]? = some c) (isBlank : Text.isBlank c = true) : Classified source i := by
  refine .inr (.inl ⟨?_, ⟨free, ?_⟩, ?_⟩)
  · intro once
    exact absurd (free.symm.trans once) (by decide)
  · rw [char]
    exact isBlank
  · rintro ⟨_, notBlank, _⟩
    rw [char, Option.any_some, isBlank] at notBlank
    cases notBlank

theorem Classified.skipped {c : Char} (free : (tokenize source).tokens.countP (·.covers i) = 0)
    (char : source[i]? = some c) (notBlank : Text.isBlank c = false)
    (once : (tokenize source).diagnostics.countP
      (fun d => d.isSkip && d.position.offset == (i : Int)) = 1) : Classified source i := by
  refine .inr (.inr ⟨?_, ?_, free, ?_, once⟩)
  · intro once
    exact absurd (free.symm.trans once) (by decide)
  · rintro ⟨_, isBlank⟩
    rw [char, Option.any_some, notBlank] at isBlank
    cases isBlank
  · rw [char, Option.any_some, notBlank]
    rfl

/-- The token of a lexeme covers every character of it. -/
theorem countP_tokensAt_lexeme {offset : Nat} {text : List Char} (category : Category)
    (low : offset ≤ i) (high : i < offset + text.length) :
    ((Piece.lexeme category text).tokensAt offset).countP (·.covers i) = 1 := by
  have covers : Token.covers ⟨category, offset, text.length⟩ i = true := by
    rw [Token.covers_iff]
    dsimp only
    omega
  exact List.countP_cons_of_pos covers

theorem countP_findingsAt_single (offset length : Nat) {complaint : Complaint}
    (isSkip : complaint.isSkip = true) :
    [Finding.mk complaint offset length].countP (·.skips offset) = 1 := by
  have skips : Finding.skips offset ⟨complaint, offset, length⟩ = true :=
    Bool.and_eq_true_iff.mpr ⟨isSkip, beq_self_eq_true offset⟩
  exact List.countP_cons_of_pos skips

/-- Every character before the place where a scan stops is in a token, or stands between tokens, or
is skipped, and only one of these. -/
theorem offset_classified (inside : (i : Int) < stopOf source) : Classified source i := by
  obtain ⟨done, piece, later, hpieces, low, high, char⟩ := exists_piece_of_lt_stopOf inside
  obtain ⟨t, run, _⟩ := scan_spec source
  obtain ⟨within, ahead, cut⟩ := run.proper piece (by simp [hpieces])
  have covers := countP_covers source i
  rw [hpieces, countP_collect (tokensAt_near i) done piece later low high] at covers
  have skips := countP_skips source i
  rw [hpieces, countP_collect (findingsAt_near i) done piece later low high] at skips
  cases cut with
  | blank _ isBlank => exact .between covers (single_at rfl low high char).2 isBlank
  | stray _ notBlank =>
    obtain ⟨same, char⟩ := single_at rfl low high char
    rw [same] at skips
    exact .skipped covers char notBlank (skips.trans (countP_findingsAt_single i 1 rfl))
  | danglingEscape _ =>
    obtain ⟨same, char⟩ := single_at rfl low high char
    rw [same] at skips
    exact .skipped covers char (by decide) (skips.trans (countP_findingsAt_single i 1 rfl))
  | closing _ _ _ => exact .inside (covers.trans (countP_tokensAt_lexeme _ low high))
  | opening _ _ => exact .inside (covers.trans (countP_tokensAt_lexeme _ low high))
  | foreignClosing _ _ => exact .inside (covers.trans (countP_tokensAt_lexeme _ low high))
  | ordinary _ _ _ => exact .inside (covers.trans (countP_tokensAt_lexeme _ low high))

end Offsets

section Order

variable (source : List Char)

/-- A scan that stops early makes tokens of its lexemes only; any other adds the token at the end of
the text. -/
theorem tokens_cases :
    ((∃ offset, (scan source).ending = .nul offset) ∧
      tokens source = tokensFrom 0 (scan source).pieces) ∨
    ((¬ ∃ offset, (scan source).ending = .nul offset) ∧
      tokens source = tokensFrom 0 (scan source).pieces ++ [⟨.endOfText, source.length, 0⟩]) := by
  simp only [tokens]
  cases (scan source).ending with
  | complete => exact .inr ⟨by simp, rfl⟩
  | unterminated entered => exact .inr ⟨by simp, rfl⟩
  | nul offset => exact .inl ⟨⟨offset, rfl⟩, List.append_nil _⟩

theorem lexeme_not_endOfText : ∀ token ∈ tokensFrom 0 (scan source).pieces,
    1 ≤ token.length ∧ token.category ≠ .endOfText := by
  obtain ⟨t, run, _⟩ := scan_spec source
  intro token member
  exact tokensFrom_proper run.proper member

theorem tokens_ordered :
    (tokens source).Pairwise fun earlier later => earlier.stop ≤ later.start := by
  rcases tokens_cases source with ⟨_, htokens⟩ | ⟨_, htokens⟩
  · rw [htokens]
    exact tokensFrom_ordered 0 _
  · rw [htokens, List.pairwise_append]
    refine ⟨tokensFrom_ordered 0 _, List.pairwise_singleton _ _, ?_⟩
    intro token member last hlast
    obtain ⟨t, _, _, whole, _⟩ := scan_spec source
    have bound := (tokensFrom_bounds member).2
    have total := congrArg List.length whole
    rw [List.length_append] at total
    rw [List.mem_singleton.mp hlast]
    show token.stop ≤ source.length
    omega

end Order

/-- The tokens of a source lie apart, in order and before the place where its scan stops; only a
scan that reaches the end of the source makes a token there; and every character before the stop
is in one token, or is a blank between tokens, or is skipped and complained about once. -/
theorem tokens_partition_source (source : List Char) :
    (∀ token ∈ (tokenize source).tokens, token.category ≠ .endOfText →
      1 ≤ token.length ∧ 0 ≤ token.start ∧ token.stop ≤ stopOf source) ∧
    (tokenize source).tokens.IsChain (fun earlier later => earlier.stop ≤ later.start) ∧
    (if (tokenize source).diagnostics.any Diagnostic.isNul then
      ∀ token ∈ (tokenize source).tokens, token.category ≠ .endOfText
    else
      ∃ lexemes, (tokenize source).tokens = lexemes ++ [⟨.endOfText, source.length, 0⟩] ∧
        ∀ token ∈ lexemes, token.category ≠ .endOfText) ∧
    ∀ i : Nat, i < stopOf source → Classified source i := by
  refine ⟨?_, ?_, ?_, fun i inside => offset_classified inside⟩
  · intro token member notEnd
    have lexeme : token ∈ tokensFrom 0 (scan source).pieces := by
      rw [tokenize_tokens] at member
      rcases tokens_cases source with ⟨_, htokens⟩ | ⟨_, htokens⟩
      · exact htokens ▸ member
      · rw [htokens, List.mem_append, List.mem_singleton] at member
        exact member.resolve_right fun last => notEnd (by rw [last])
    have bounds := tokensFrom_bounds lexeme
    refine ⟨(lexeme_not_endOfText source token lexeme).1, bounds.1, ?_⟩
    rw [stopOf_eq]
    omega
  · rw [tokenize_tokens]
    exact (tokens_ordered source).isChain
  · rw [tokenize_tokens]
    rcases tokens_cases source with ⟨nul, htokens⟩ | ⟨notNul, htokens⟩
    · rw [if_pos ((any_isNul_iff source).mpr nul), htokens]
      exact fun token member => (lexeme_not_endOfText source token member).2
    · rw [if_neg (mt (any_isNul_iff source).mp notNul)]
      exact ⟨_, htokens, fun token member => (lexeme_not_endOfText source token member).2⟩

end Lexing

end Astra
