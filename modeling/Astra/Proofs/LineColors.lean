import Astra.Proofs.Boxes
import Astra.Proofs.Comments
import Astra.Proofs.Complaints
import Astra.Proofs.Decisions

/-!
# Colors at the ends of lines

A source in color is put into its box line by line, and the edge of the box is written between the
lines. A color that is still in use at the end of a line therefore reaches the edge of the next one.
Tokens end with their color, so this happens exactly where a token goes on beyond the end of a line,
and the only tokens that do are escapes of line feeds.
-/

namespace Astra

/-- How far a terminal has come in a control sequence. -/
inductive Progress where
  | outside
  /-- After the escape character. -/
  | escaped
  /-- After the bracket and some parameters. -/
  | bracketed (parameters : List Char)
  deriving DecidableEq, Repr

/-- What a terminal remembers of the text that was written to it. -/
structure Terminal where
  colored : Bool := false
  progress : Progress := .outside
  deriving DecidableEq, Repr

namespace Terminal

/-- Whether a sequence with the given parameters starts a color. Without parameters, or with a zero,
it ends one. -/
def startsColor (parameters : List Char) : Bool := !(parameters == [] || parameters == ['0'])

def read (t : Terminal) (c : Char) : Terminal :=
  if c = Rgb.escape then { t with progress := .escaped }
  else
    match t.progress with
    | .outside => t
    | .escaped => { t with progress := if c = '[' then .bracketed [] else .outside }
    | .bracketed parameters =>
      if isParameter c then { t with progress := .bracketed (parameters ++ [c]) }
      else if c = 'm' then ⟨startsColor parameters, .outside⟩
      else { t with progress := .outside }

/-- The terminal after a text. -/
def after (t : Terminal) (text : List Char) : Terminal := text.foldl read t

/-- Whether a color that is started on a line is still in use at the end of the line. -/
def leavesColor (line : List Char) : Bool := (({} : Terminal).after line).colored

variable {t : Terminal}

theorem after_append (t : Terminal) (text more : List Char) :
    t.after (text ++ more) = (t.after text).after more := List.foldl_append

theorem read_of_outside (outside : t.progress = .outside) {c : Char} (ordinary : c ≠ Rgb.escape) :
    t.read c = t := by
  rw [read, if_neg ordinary, outside]

/-- A line feed belongs to no control sequence. -/
theorem read_feed (t : Terminal) : t.read '\n' = { t with progress := .outside } := by
  obtain ⟨colored, progress⟩ := t
  cases progress <;> rfl

theorem after_of_unescaped (outside : t.progress = .outside) {text : List Char}
    (plain : Unescaped text) : t.after text = t := by
  induction text with
  | nil => rfl
  | cons c rest ih =>
    rw [Unescaped, List.mem_cons, not_or] at plain
    obtain ⟨ordinary, later⟩ := plain
    rw [after, List.foldl_cons, read_of_outside outside (Ne.symm ordinary)]
    exact ih later

theorem after_parameters {colored : Bool} {seen parameters : List Char}
    (proper : parameters.all isParameter = true) :
    (⟨colored, .bracketed seen⟩ : Terminal).after parameters =
      ⟨colored, .bracketed (seen ++ parameters)⟩ := by
  induction parameters generalizing seen with
  | nil => rw [List.append_nil]; rfl
  | cons c rest ih =>
    obtain ⟨first, later⟩ := Bool.and_eq_true_iff.mp (List.all_cons ▸ proper)
    have ordinary : c ≠ Rgb.escape := by
      rintro rfl
      cases first
    have step : (⟨colored, .bracketed seen⟩ : Terminal).read c =
        ⟨colored, .bracketed (seen ++ [c])⟩ := by
      simp only [read, if_neg ordinary, first, if_true]
    rw [after, List.foldl_cons, step, List.append_cons seen c rest]
    exact ih later

/-- After a control sequence only its parameters count. -/
theorem after_control (t : Terminal) {parameters : List Char}
    (proper : parameters.all isParameter = true) :
    t.after (control parameters) = ⟨startsColor parameters, .outside⟩ := by
  have opened : t.after [Rgb.escape, '['] = ⟨t.colored, .bracketed []⟩ := rfl
  have closed : ∀ seen, (⟨t.colored, .bracketed seen⟩ : Terminal).after ['m'] =
      ⟨startsColor seen, .outside⟩ := fun seen => rfl
  show t.after ([Rgb.escape, '['] ++ (parameters ++ ['m'])) = _
  rw [after_append, opened, after_append, after_parameters proper, closed, List.nil_append]

theorem after_startSequence (t : Terminal) {color : Rgb} (unsigned : color.Unsigned) :
    t.after color.startSequence = ⟨true, .outside⟩ := by
  rw [Rgb.startSequence_eq, after_control t (Rgb.parameters_all unsigned)]
  rfl

theorem after_resetSequence (t : Terminal) : t.after Rgb.resetSequence = {} := by
  rw [Rgb.resetSequence_eq, after_control t (by decide)]
  rfl

/-- Whether the terminal writes in a color at each line feed of a text. -/
def atFeeds (t : Terminal) : List Char → List Bool
  | [] => []
  | c :: rest => if c = '\n' then t.colored :: (t.read c).atFeeds rest else (t.read c).atFeeds rest

theorem atFeeds_append (t : Terminal) (text more : List Char) :
    t.atFeeds (text ++ more) = t.atFeeds text ++ (t.after text).atFeeds more := by
  induction text generalizing t with
  | nil => rfl
  | cons c rest ih =>
    by_cases feed : c = '\n'
    · rw [List.cons_append, atFeeds, if_pos feed, atFeeds, if_pos feed, ih]
      rfl
    · rw [List.cons_append, atFeeds, if_neg feed, atFeeds, if_neg feed, ih]
      rfl

theorem length_atFeeds (t : Terminal) (text : List Char) :
    (t.atFeeds text).length = text.count '\n' := by
  induction text generalizing t with
  | nil => rfl
  | cons c rest ih =>
    by_cases feed : c = '\n'
    · rw [atFeeds, if_pos feed, List.length_cons, ih, feed, List.count_cons_self]
    · rw [atFeeds, if_neg feed, ih, List.count_cons_of_ne feed]

theorem atFeeds_of_not_mem (t : Terminal) {text : List Char} (unbroken : '\n' ∉ text) :
    t.atFeeds text = [] := by
  rw [← List.length_eq_zero_iff, length_atFeeds]
  exact List.count_eq_zero.mpr unbroken

theorem atFeeds_of_unescaped (outside : t.progress = .outside) {text : List Char}
    (plain : Unescaped text) : t.atFeeds text = List.replicate (text.count '\n') t.colored := by
  induction text with
  | nil => rfl
  | cons c rest ih =>
    rw [Unescaped, List.mem_cons, not_or] at plain
    obtain ⟨ordinary, later⟩ := plain
    rw [atFeeds, read_of_outside outside (Ne.symm ordinary), ih later]
    by_cases feed : c = '\n'
    · rw [if_pos feed, feed, List.count_cons_self, List.replicate_succ]
    · rw [if_neg feed, List.count_cons_of_ne feed]

/-- What the terminal is like at a line feed further on. -/
theorem atFeeds_getElem? {text before after : List Char} (split : text = before ++ '\n' :: after)
    (t : Terminal) : (t.atFeeds text)[before.count '\n']? = some (t.after before).colored := by
  rw [split, atFeeds_append, List.getElem?_append_right (by rw [length_atFeeds]), length_atFeeds,
    Nat.sub_self]
  rfl

end Terminal

open Terminal

section Spans

/-- Whether each line feed in a span is in color. -/
def Span.feeds : Span → List Bool
  | raw text => List.replicate (text.count '\n') false
  | painted _ text => List.replicate (text.count '\n') true

/-- A painted text goes beyond the end of a line with its last character only. -/
def Span.EndsLate : Span → Prop
  | raw _ => True
  | painted _ text => '\n' ∉ text.dropLast

theorem after_paint (color : Rgb) (text : List Char) :
    ({} : Terminal).after (color.paint text) = {} := by
  rw [Rgb.paint]
  split
  · rfl
  · rw [after_append, after_resetSequence]

theorem Rgb.feed_not_mem_startSequence {color : Rgb} (unsigned : color.Unsigned) :
    '\n' ∉ color.startSequence := by
  rw [Rgb.startSequence_eq]
  exact feed_not_mem_control (Rgb.parameters_all unsigned)

theorem Rgb.feed_not_mem_resetSequence : '\n' ∉ Rgb.resetSequence := by decide

/-- A span leaves the terminal as it was. -/
theorem Span.after_write {span : Span} (plain : Unescaped span.text) :
    ({} : Terminal).after span.write = {} := by
  cases span with
  | raw text => exact after_of_unescaped rfl plain
  | painted color text => exact after_paint color text

theorem Span.atFeeds_write {span : Span} (shown : span.InRange) (plain : Unescaped span.text) :
    ({} : Terminal).atFeeds span.write = span.feeds := by
  cases span with
  | raw text => exact atFeeds_of_unescaped rfl plain
  | painted color text =>
    have inside : Unescaped text := plain
    rw [write, Rgb.paint]
    split
    · rename_i empty
      rw [empty]
      rfl
    · rw [atFeeds_append, atFeeds_append, after_startSequence _ shown.unsigned,
        atFeeds_of_not_mem _ (Rgb.feed_not_mem_startSequence shown.unsigned),
        atFeeds_of_not_mem _ Rgb.feed_not_mem_resetSequence, atFeeds_of_unescaped rfl inside,
        List.nil_append, List.append_nil]
      rfl

/-- Written spans are in color at the line feeds of the painted ones. -/
theorem atFeeds_spans {spans : List Span} (shown : ∀ span ∈ spans, span.InRange)
    (plain : ∀ span ∈ spans, Unescaped span.text) :
    ({} : Terminal).after (spans.flatMap Span.write) = {} ∧
      ({} : Terminal).atFeeds (spans.flatMap Span.write) = spans.flatMap Span.feeds := by
  induction spans with
  | nil => exact ⟨rfl, rfl⟩
  | cons span rest ih =>
    obtain ⟨firstShown, shown⟩ := List.forall_mem_cons.mp shown
    obtain ⟨firstPlain, plain⟩ := List.forall_mem_cons.mp plain
    obtain ⟨ends, feeds⟩ := ih shown plain
    rw [List.flatMap_cons, List.flatMap_cons, after_append, atFeeds_append,
      Span.after_write firstPlain, Span.atFeeds_write firstShown firstPlain, feeds]
    exact ⟨ends, rfl⟩

/-- Whether each line of a text leaves a color that is started on it. -/
def openLines (text : List Char) : List Bool := (text.splitOn '\n').map leavesColor

/-- What stands at the start of a line and leaves the terminal as it was does not matter. -/
theorem openLines_append {text : List Char} (unbroken : '\n' ∉ text)
    (quiet : ({} : Terminal).after text = {}) (more : List Char) :
    openLines (text ++ more) = openLines more := by
  obtain ⟨line, lines, split⟩ := List.exists_cons_of_ne_nil (List.splitOn_ne_nil '\n' more)
  have first : leavesColor (text ++ line) = leavesColor line := by
    rw [leavesColor, after_append, quiet]
    rfl
  rw [openLines, openLines, Text.splitOn_append_of_not_mem unbroken split, split, List.map_cons,
    List.map_cons, first]

theorem openLines_append_cons {text : List Char} (unbroken : '\n' ∉ text) (more : List Char) :
    openLines (text ++ '\n' :: more) = leavesColor text :: openLines more := by
  rw [openLines, List.splitOn_append_cons_self_of_not_mem unbroken]
  rfl

theorem openLines_raw {text : List Char} (plain : Unescaped text) (more : List Char) :
    openLines (text ++ more) = List.replicate (text.count '\n') false ++ openLines more := by
  induction text with
  | nil => rfl
  | cons c rest ih =>
    rw [Unescaped, List.mem_cons, not_or] at plain
    obtain ⟨ordinary, later⟩ := plain
    by_cases feed : c = '\n'
    · have cut : openLines ([] ++ '\n' :: (rest ++ more)) = false :: openLines (rest ++ more) :=
        openLines_append_cons List.not_mem_nil _
      rw [ih later] at cut
      rw [feed, List.count_cons_self, List.replicate_succ]
      exact cut
    · have quiet : ({} : Terminal).after [c] = {} := by
        show ({} : Terminal).read c = {}
        exact read_of_outside rfl (Ne.symm ordinary)
      have single : '\n' ∉ [c] := fun member => feed (List.mem_singleton.mp member).symm
      have skip := openLines_append single quiet (rest ++ more)
      rw [List.count_cons_of_ne feed, ← ih later]
      exact skip

/-- A painted text leaves its color at the end of a line if its last character is the line feed. -/
theorem openLines_paint {color : Rgb} (unsigned : color.Unsigned) {text : List Char}
    (plain : Unescaped text) (late : '\n' ∉ text.dropLast) (more : List Char) :
    openLines (color.paint text ++ more) =
      List.replicate (text.count '\n') true ++ openLines more := by
  have start := Rgb.feed_not_mem_startSequence unsigned
  have reset := Rgb.feed_not_mem_resetSequence
  by_cases inside : '\n' ∈ text
  · -- the line feed is the last character, so the reset comes first on the next line
    obtain ⟨front, last, rfl⟩ : ∃ front last, text = front ++ [last] :=
      ⟨_, _, (List.dropLast_append_getLast (List.ne_nil_of_mem inside)).symm⟩
    rw [List.dropLast_concat] at late
    obtain rfl : last = '\n' := by
      rcases List.mem_append.mp inside with early | single
      · exact absurd early late
      · exact (List.mem_singleton.mp single).symm
    have front' : Unescaped front := fun member => plain (List.mem_append_left _ member)
    have colored : leavesColor (color.startSequence ++ front) = true := by
      rw [leavesColor, after_append, after_startSequence _ unsigned, after_of_unescaped rfl front']
    have unbroken : '\n' ∉ color.startSequence ++ front := List.not_mem_append start late
    have cut := openLines_append_cons unbroken (Rgb.resetSequence ++ more)
    rw [colored, openLines_append reset (after_resetSequence _)] at cut
    have single : (front ++ ['\n']).count '\n' = 1 := by
      rw [List.count_append, List.count_eq_zero.mpr late]
      rfl
    rw [Rgb.paint, if_neg (List.ne_nil_of_mem inside), single]
    simpa using cut
  · have unbroken : '\n' ∉ color.paint text := by
      rw [Rgb.paint]
      split
      · exact List.not_mem_nil
      · exact List.not_mem_append (List.not_mem_append start inside) reset
    rw [openLines_append unbroken (after_paint color text), List.count_eq_zero.mpr inside]
    rfl

/-- Lines of written spans leave a color where a painted span goes beyond the end of the line. -/
theorem openLines_spans {spans : List Span} (shown : ∀ span ∈ spans, span.InRange)
    (plain : ∀ span ∈ spans, Unescaped span.text) (late : ∀ span ∈ spans, span.EndsLate) :
    openLines (spans.flatMap Span.write) = spans.flatMap Span.feeds ++ [false] := by
  induction spans with
  | nil => rfl
  | cons span rest ih =>
    obtain ⟨firstShown, shown⟩ := List.forall_mem_cons.mp shown
    obtain ⟨firstPlain, plain⟩ := List.forall_mem_cons.mp plain
    obtain ⟨firstLate, late⟩ := List.forall_mem_cons.mp late
    rw [List.flatMap_cons, List.flatMap_cons, List.append_assoc, ← ih shown plain late]
    cases span with
    | raw text => exact openLines_raw firstPlain _
    | painted color text => exact openLines_paint firstShown.unsigned firstPlain firstLate _

end Spans

section Boxes

variable {t : Terminal}

/-- Edges between lines change nothing at the ends of the lines. -/
theorem atFeeds_gutterLines (outside : t.progress = .outside) {c : Char}
    (ordinary : Rgb.escape ≠ c) (unbroken : c ≠ '\n') (lines : List (List Char)) :
    t.after (lines.flatMap (Report.gutterLine c)) = t.after (lines.flatMap Report.endLine) ∧
      t.atFeeds (lines.flatMap (Report.gutterLine c)) =
        t.atFeeds (lines.flatMap Report.endLine) := by
  have plain : Unescaped (Report.edge c) :=
    (unescaped_replicate (by decide) _).append (.cons ordinary List.not_mem_nil)
  have edge := Report.feed_not_mem_edge unbroken
  induction lines generalizing t with
  | nil => exact ⟨rfl, rfl⟩
  | cons line lines ih =>
    have closed : (t.after (Report.endLine line)).progress = .outside := by
      rw [Report.endLine, after_append]
      exact congrArg progress (read_feed _)
    obtain ⟨ends, feeds⟩ := ih closed
    have gutter : Report.gutterLine c line = Report.edge c ++ Report.endLine line := by
      rw [Report.gutterLine_eq, Report.endLine, Report.endLine, List.append_assoc]
    simp only [List.flatMap_cons, gutter, after_append, atFeeds_append,
      after_of_unescaped outside plain, atFeeds_of_not_mem t edge, List.nil_append, ends, feeds,
      and_self]

/-- A box around code that leaves the terminal as it was is in color where the code is. -/
theorem atFeeds_box {code : List Char} (quiet : ({} : Terminal).after code = {}) :
    ({} : Terminal).atFeeds (Report.box code) =
      false :: (({} : Terminal).atFeeds code ++ [false, false]) := by
  obtain ⟨ends, feeds⟩ := atFeeds_gutterLines (t := {}) rfl (show Rgb.escape ≠ '║' by decide)
    (by decide) (code.splitOn '\n')
  have lines : (code.splitOn '\n').flatMap Report.endLine = code ++ ['\n'] :=
    Text.flatMap_splitOn '\n' code
  rw [lines, after_append, quiet] at ends
  rw [lines, atFeeds_append, quiet] at feeds
  have top : ({} : Terminal).after (Report.gutterLine '╔' []) = {} ∧
      ({} : Terminal).atFeeds (Report.gutterLine '╔' []) = [false] := by decide
  have last : ({} : Terminal).after ['\n'] = {} ∧ ({} : Terminal).atFeeds ['\n'] = [false] ∧
      ({} : Terminal).atFeeds (Report.gutterLine '╚' []) = [false] := by decide
  rw [Report.box, atFeeds_append, atFeeds_append, after_append, top.1, top.2, ends, feeds, last.1,
    last.2.1, last.2.2]
  simp

theorem openLines_box (code : List Char) :
    openLines (Report.box code) = false :: (openLines code ++ [false, false]) := by
  have unbroken : ∀ line ∈ Report.boxLines code, '\n' ∉ line := fun line =>
    Report.feed_not_mem_boxLines
  have lines := Text.splitOn_endLines unbroken []
  rw [List.append_nil, ← Report.box_eq code] at lines
  have edges : leavesColor (Report.edge '╔') = false ∧ leavesColor (Report.edge '╚') = false := by
    decide
  have edge : leavesColor ∘ (Report.edge '║' ++ ·) = leavesColor := funext fun line => rfl
  rw [openLines, lines, Report.boxLines]
  simp only [List.map_append, List.map_cons, List.map_map, List.cons_append, edge, edges,
    List.append_assoc]
  rfl

end Boxes

namespace Lexing

theorem feed_foreign : Foreign '\n' := ⟨by decide, by decide, by decide, by decide⟩

/-- Only escapes go beyond the end of a line. -/
theorem State.escape_of_feed {s : State} {category : Category} {text : List Char}
    (step : s.step = .piece (.lexeme category text)) (feed : '\n' ∈ text) :
    category = .escape ∧ text = ['\\', '\n'] := by
  obtain ⟨c, rest, _, _, hpiece⟩ := State.piece_of_step step
  have first : c ≠ '\n' := by
    rintro rfl
    cases hpiece
  have made := pieceAt_made (s.within.map Entered.enclosure) s.previous c rest
  rw [← hpiece] at made
  cases made with
  | closing enclosure _ _ => cases enclosure <;> exact absurd feed (by decide)
  | comment _ _ => exact absurd feed (feed_not_mem_restOfLine _)
  | plain _ _ found =>
    obtain ⟨escape, next, rfl⟩ := found.escape_of_foreign feed_foreign first feed
    obtain rfl : '\n' = next := by simpa using feed
    exact ⟨escape, rfl⟩

theorem escape_of_feed {source : List Char} {token : Token} (member : token ∈ tokens source)
    (feed : '\n' ∈ token.text source) :
    token.category = .escape ∧ token.text source = ['\\', '\n'] := by
  rcases lexeme_or_end member with lexeme | rfl
  · obtain ⟨pieces, s, _, _, _, step⟩ := point_of_lexeme lexeme
    exact State.escape_of_feed step feed
  · rw [endOfText_text] at feed
    cases feed

end Lexing

namespace Rendering

variable (source : List Char) (policy : Policy)

theorem getElem?_replicate_append {k m : Nat} {b : Bool} {flags : List Bool} :
    (List.replicate k b ++ flags)[m]? = some true ↔
      (m < k ∧ b = true) ∨ ∃ j, m = k + j ∧ flags[j]? = some true := by
  by_cases small : m < k
  · rw [List.getElem?_append_left (by simpa using small), List.getElem?_replicate, if_pos small]
    constructor
    · intro same
      exact .inl ⟨small, Option.some.inj same⟩
    · rintro (⟨_, rfl⟩ | ⟨j, rfl, _⟩)
      · rfl
      · omega
  · rw [List.getElem?_append_right (by simpa using small), List.length_replicate]
    constructor
    · intro found
      exact .inr ⟨m - k, by omega, found⟩
    · rintro (⟨large, _⟩ | ⟨j, rfl, found⟩)
      · omega
      · rwa [Nat.add_sub_cancel_left]

theorem beforeEnd_cons {token : Token} (notEnd : token.isEnd = false) (rest : List Token) :
    beforeEnd (token :: rest) = token :: beforeEnd rest :=
  List.takeWhile_cons_of_pos (by rw [notEnd]; rfl)

theorem beforeEnd_of_end {token : Token} (isEnd : token.isEnd = true) (rest : List Token) :
    beforeEnd (token :: rest) = [] :=
  List.takeWhile_cons_of_neg (by rw [isEnd]; decide)

theorem Follows.le_start {position : Int} {tokens : List Token} (follows : Follows position tokens)
    {token : Token} (member : token ∈ beforeEnd tokens) : position ≤ token.start := by
  induction tokens generalizing position with
  | nil => cases member
  | cons first rest ih =>
    obtain ⟨start, length⟩ := follows.head
    cases isEnd : first.isEnd with
    | true =>
      rw [beforeEnd_of_end isEnd] at member
      cases member
    | false =>
      rw [beforeEnd_cons isEnd] at member
      rcases List.mem_cons.mp member with rfl | later
      · exact start
      · have after := ih (follows.tail isEnd) later
        rw [Token.stop] at after
        omega

/-- The line feeds of a rendering that are in color are those in tokens before the end. -/
theorem feeds_ofTokensFrom {position : Int} {tokens : List Token}
    (follows : Follows position tokens) (tracker : Tracker) (m : Nat) :
    ((ofTokensFrom source policy position tracker tokens).spans.flatMap Span.feeds)[m]? =
        some true ↔
      ∃ token ∈ beforeEnd tokens,
        (Text.slice source position token.start).count '\n' ≤ m ∧
        m < (Text.slice source position token.start).count '\n' +
          (token.text source).count '\n' := by
  induction tokens generalizing position tracker m with
  | nil => simp [ofTokensFrom, Span.feeds, beforeEnd, List.getElem?_replicate]
  | cons token rest ih =>
    cases isEnd : token.isEnd with
    | true =>
      rw [ofTokensFrom_end source policy isEnd, beforeEnd_of_end isEnd]
      simp [Span.feeds, List.getElem?_replicate]
    | false =>
      obtain ⟨start, length⟩ := follows.head
      have tail := follows.tail isEnd
      have forward : token.start ≤ token.stop := by
        rw [Token.stop]
        omega
      -- line feeds before a later token: in the gap, in this token, and from its end on
      have total : ∀ later ∈ beforeEnd rest, (Text.slice source position later.start).count '\n' =
          (Text.slice source position token.start).count '\n' + (token.text source).count '\n' +
            (Text.slice source token.stop later.start).count '\n' := by
        intro later member
        have reaches : position ≤ token.stop := Int.le_trans start forward
        rw [← List.count_append, ← List.count_append, Token.text,
          Text.slice_append source follows.1 start forward,
          Text.slice_append source follows.1 reaches (Follows.le_start tail member)]
      rw [ofTokensFrom_token source policy isEnd, beforeEnd_cons isEnd]
      simp only [List.flatMap_cons, Span.feeds, getElem?_replicate_append, ih tail,
        List.mem_cons, exists_eq_or_imp]
      constructor
      · rintro (⟨_, gap⟩ | ⟨j, rfl, ⟨inside, _⟩ | ⟨i, rfl, later, member, least, below⟩⟩)
        · cases gap
        · left
          omega
        · right
          refine ⟨later, member, ?_⟩
          have sum := total later member
          omega
      · rintro (⟨least, below⟩ | ⟨later, member, least, below⟩)
        · exact .inr ⟨_, (Nat.add_sub_cancel' least).symm, .inl ⟨by omega, trivial⟩⟩
        · have sum := total later member
          refine .inr ⟨_, (Nat.add_sub_cancel' (by omega)).symm, .inr ⟨_,
            (Nat.add_sub_cancel' (by omega)).symm, later, member, by omega, by omega⟩⟩

/-- What a rendering paints is the text of a token before the end. -/
theorem painted_text {position : Int} {tracker : Tracker} {tokens : List Token} {color : Rgb}
    {text : List Char}
    (member : Span.painted color text ∈
      (ofTokensFrom source policy position tracker tokens).spans) :
    ∃ token ∈ beforeEnd tokens, text = token.text source := by
  induction tokens generalizing position tracker with
  | nil => cases List.mem_singleton.mp member
  | cons token rest ih =>
    cases isEnd : token.isEnd with
    | true =>
      rw [ofTokensFrom_end source policy isEnd] at member
      cases List.mem_singleton.mp member
    | false =>
      rw [ofTokensFrom_token source policy isEnd] at member
      rw [beforeEnd_cons isEnd]
      rcases List.mem_cons.mp member with impossible | member
      · cases impossible
      · rcases List.mem_cons.mp member with same | member
        · exact ⟨token, List.mem_cons_self, (Span.painted.inj same).2⟩
        · obtain ⟨later, found, same⟩ := ih member
          exact ⟨later, List.mem_cons_of_mem token found, same⟩

end Rendering

section Sources

open Lexing

variable {source : List Char}

theorem mem_tokens_of_beforeEnd {token : Token} (member : token ∈ beforeEnd (tokens source)) :
    token ∈ tokens source := (List.takeWhile_sublist _).mem member

theorem mem_beforeEnd_tokens {token : Token} (member : token ∈ tokens source)
    (notEnd : token.isEnd = false) : token ∈ beforeEnd (tokens source) := by
  have inside : ∀ lexeme ∈ tokensFrom 0 (scan source).pieces, (!lexeme.isEnd) = true := by
    intro lexeme found
    rw [lexeme_isEnd source lexeme found]
    rfl
  rw [beforeEnd]
  rcases tokens_cases source with ⟨_, htokens⟩ | ⟨_, htokens⟩
  · rw [htokens] at member ⊢
    rwa [List.takeWhile_eq_self_iff.mpr inside]
  · rw [htokens] at member ⊢
    rw [List.takeWhile_append_of_pos inside]
    rcases List.mem_append.mp member with lexeme | last
    · exact List.mem_append_left _ lexeme
    · rw [List.mem_singleton.mp last] at notEnd
      cases notEnd

/-- The line with the given number, counted from one, ends with an escaped line feed. -/
def EscapedFeed (source : List Char) (n : Nat) : Prop :=
  ∃ token ∈ (tokenize source).tokens, token.category = .escape ∧
    token.text source = ['\\', '\n'] ∧ (Position.ofOffset source token.start).line = n

instance (source : List Char) (n : Nat) : Decidable (EscapedFeed source n) :=
  inferInstanceAs (Decidable (∃ token ∈ (tokenize source).tokens, _))

theorem line_ofOffset (source : List Char) (x : Int) :
    (Position.ofOffset source x).line = (Text.slice source 0 x).count '\n' + 1 := by
  have whole : Text.clampIndex source.length 0 = 0 := rfl
  rw [Text.slice_eq_drop_take, whole]
  rfl

/-- The line feeds of a rendered source that are in color are the escaped ones. -/
theorem feeds_ofTokens (policy : Policy) (m : Nat) :
    ((Rendering.ofTokens source (tokens source) policy).spans.flatMap Span.feeds)[m]? = some true ↔
      EscapedFeed source (m + 1) := by
  rw [EscapedFeed, tokenize_tokens, Rendering.ofTokens,
    Rendering.feeds_ofTokensFrom source policy (.of_consecutive (tokens_consecutive source))]
  constructor
  · rintro ⟨token, member, least, below⟩
    have found := mem_tokens_of_beforeEnd member
    have feed : '\n' ∈ token.text source := List.count_pos_iff.mp (by omega)
    obtain ⟨escape, text⟩ := escape_of_feed found feed
    refine ⟨token, found, escape, text, ?_⟩
    have single : (token.text source).count '\n' = 1 := by
      rw [text]
      rfl
    rw [line_ofOffset]
    omega
  · rintro ⟨token, member, escape, text, line⟩
    have lexeme : token.isEnd = false := by
      rw [Token.isEnd, escape]
      rfl
    have single : (token.text source).count '\n' = 1 := by
      rw [text]
      rfl
    rw [line_ofOffset] at line
    exact ⟨token, mem_beforeEnd_tokens member lexeme, by omega, by omega⟩

theorem unescaped_spans (plain : Unescaped source) (policy : Policy) :
    ∀ span ∈ (Rendering.ofTokens source (tokens source) policy).spans, Unescaped span.text := by
  intro span member escape
  have text := Rendering.ofTokens_text source policy (tokens_consecutive source)
  rw [covered_tokens] at text
  rw [Unescaped, ← text] at plain
  exact plain (List.mem_flatMap.mpr ⟨span, member, escape⟩)

theorem endsLate_spans (policy : Policy) :
    ∀ span ∈ (Rendering.ofTokens source (tokens source) policy).spans, span.EndsLate := by
  intro span member
  cases span with
  | raw text => trivial
  | painted color text =>
    obtain ⟨token, found, rfl⟩ := Rendering.painted_text source policy member
    intro early
    obtain ⟨_, text⟩ :=
      escape_of_feed (mem_tokens_of_beforeEnd found) (List.mem_of_mem_dropLast early)
    rw [text] at early
    revert early
    decide

/-- The line feeds of a box in color: the box has edges above and below the source. -/
theorem boxed_feeds (policy : Policy) (k n : Nat) :
    (false :: ((Rendering.ofTokens source (tokens source) policy).spans.flatMap Span.feeds ++
        List.replicate k false))[n]? = some true ↔ EscapedFeed source n := by
  cases n with
  | zero =>
    constructor
    · intro impossible
      cases impossible
    · rintro ⟨token, _, _, _, line⟩
      rw [line_ofOffset] at line
      cases line
  | succ m =>
    rw [List.getElem?_cons_succ, ← feeds_ofTokens policy m, List.getElem?_append]
    split
    · rfl
    · rename_i beyond
      rw [List.getElem?_replicate, List.getElem?_eq_none (Nat.le_of_not_lt beyond)]
      split <;> simp

variable {policy : Policy}

theorem inRange_spans (proper : policy.InRange) :
    ∀ span ∈ (Rendering.ofTokens source (tokens source) policy).spans, span.InRange :=
  Rendering.ofTokensFrom_inRange source proper 0 {} (tokens source)

/-- The lines of a boxed source that leave a color end with an escaped line feed. -/
theorem openLines_boxed (plain : Unescaped source) (proper : policy.InRange) (n : Nat) :
    (openLines (Report.box (Rendering.ofTokens source (tokens source) policy).write))[n]? =
      some true ↔ EscapedFeed source n := by
  have lines := openLines_spans (inRange_spans proper) (unescaped_spans plain policy)
    (endsLate_spans policy)
  rw [← boxed_feeds policy 3 n, Rendering.write, openLines_box, lines, List.append_assoc]
  rfl

/-- A boxed source is in color at its escaped line feeds. -/
theorem atFeeds_boxed (plain : Unescaped source) (proper : policy.InRange) (n : Nat) :
    (({} : Terminal).atFeeds
        (Report.box (Rendering.ofTokens source (tokens source) policy).write))[n]? = some true ↔
      EscapedFeed source n := by
  obtain ⟨quiet, feeds⟩ := atFeeds_spans (inRange_spans proper) (unescaped_spans plain policy)
  rw [← boxed_feeds policy 2 n, Rendering.write, atFeeds_box quiet, feeds]
  rfl

end Sources

theorem colored_after_feed (t : Terminal) (k : Nat) :
    (t.after ('\n' :: List.replicate k ' ')).colored = t.colored := by
  have outside : (t.read '\n').progress = .outside := by rw [read_feed]
  rw [after, List.foldl_cons, ← after,
    after_of_unescaped outside (unescaped_replicate (by decide) k), read_feed]

/-- A source in color keeps its colors inside the lines of its box, except that the color of an
escaped line feed reaches the edge of the next line. -/
theorem box_colored_at_escaped_feeds {table : List (List Char × Candidate)}
    {overrides : Overrides} (parsed : Overrides.read table = .ok overrides) {source : List Char}
    (plain : '\x1b' ∉ source) :
    let block := (Report.codeBlock { policy := Policy.standard.override overrides } source
      (Lexing.tokenize source).tokens).1
    (∀ n line, (block.splitOn '\n')[n]? = some line →
      (Terminal.leavesColor line = true ↔ EscapedFeed source n)) ∧
    (∀ before after, block = before ++ '\n' :: (List.replicate 7 ' ' ++ '║' :: after) →
      ((({} : Terminal).after (before ++ '\n' :: List.replicate 7 ' ')).colored = true ↔
        EscapedFeed source (before.count '\n'))) ∧
    ∀ token ∈ (Lexing.tokenize source).tokens, '\n' ∈ token.text source →
      token.category = .escape ∧ token.text source = ['\\', '\n'] := by
  intro block
  have proper := Policy.inRange_of_read parsed
  have boxed : block = Report.box (Rendering.ofTokens source (Lexing.tokens source)
      (Policy.standard.override overrides)).write := by
    rw [← Lexing.tokenize_tokens]
    rfl
  refine ⟨?_, ?_, ?_⟩
  · intro n line found
    have flag : (openLines block)[n]? = some (leavesColor line) := by
      rw [openLines, List.getElem?_map, found]
      rfl
    have iff := openLines_boxed plain proper n
    rwa [← boxed, flag, Option.some_inj] at iff
  · intro before after split
    have iff := atFeeds_boxed plain proper (before.count '\n')
    rw [← boxed, atFeeds_getElem? split, Option.some_inj] at iff
    rwa [after_append, colored_after_feed]
  · intro token member feed
    rw [Lexing.tokenize_tokens] at member
    exact Lexing.escape_of_feed member feed

/-- Of two line feeds between quotes, the escaped one is in color. -/
theorem box_colored_at_escaped_feeds_quoted :
    let table := [("escape".toList, Candidate.text "red".toList)]
    let overrides : Overrides := [(.escape, ⟨128, 0, 0⟩)]
    let source := "\"\\\n(\n\"".toList
    let block := (Report.codeBlock { policy := Policy.standard.override overrides } source
      (Lexing.tokenize source).tokens).1
    Overrides.read table = .ok overrides ∧ '\x1b' ∉ source ∧
    (∃ line, (block.splitOn '\n')[1]? = some line ∧ Terminal.leavesColor line = true) ∧
    ∃ line, (block.splitOn '\n')[2]? = some line ∧ Terminal.leavesColor line ≠ true := by
  intro table overrides source block
  have parsed : Overrides.read table = .ok overrides := by decide +kernel
  have plain : '\x1b' ∉ source := by decide
  have escaped : EscapedFeed source 1 ∧ ¬ EscapedFeed source 2 := by decide +kernel
  have length : (block.splitOn '\n').length = 6 := by decide +kernel
  have lines := (box_colored_at_escaped_feeds parsed plain).1
  refine ⟨parsed, plain, ⟨_, List.getElem?_eq_getElem (by omega), ?_⟩,
    ⟨_, List.getElem?_eq_getElem (by omega), ?_⟩⟩
  · exact (lines 1 _ (List.getElem?_eq_getElem _)).mpr escaped.1
  · exact fun leaves => escaped.2 ((lines 2 _ (List.getElem?_eq_getElem _)).mp leaves)

/-- Below an escaped line feed, the edge of the box is written in color. -/
theorem edge_colored_after_escaped_feed :
    let block := (Report.codeBlock {} "\\\n".toList (Lexing.tokenize "\\\n".toList).tokens).1
    let above := "       ╔\n       ║\x1b[38;2;16;226;145m\\".toList
    (block.splitOn '\n')[1]? = some (above.drop 9) ∧
      Terminal.leavesColor (above.drop 9) = true ∧
    block = above ++ '\n' :: (List.replicate 7 ' ' ++ '║' :: "\x1b[0m\n       ╚\n".toList) ∧
      (({} : Terminal).after (above ++ '\n' :: List.replicate 7 ' ')).colored = true := by
  decide +kernel

end Astra
