import Mathlib.Control.Monad.Basic
import Mathlib.Tactic.ByContra
import Astra.Command.Run
import Astra.Proofs.Encoding
import Astra.Proofs.Rooms

/-!
# Bad configurations

A configuration file that cannot be used is refused with a complaint, or it breaks the run. This
tells the two apart by the bytes of the file. Malformed documents and values of the wrong kind are
refused, and a refusal ends the run with its own exit code and without output. What breaks a run are
bytes that encode no text, numbers that are too long to be read or shown, values that are nested
more deeply than there is room for where they are read or shown, and colors whose channels are not
numerals.
-/

namespace Astra

namespace Overrides

/-- The first bad entry of a table of colors is the one that is reported. -/
theorem readOnto_eq_error_iff {table : List (List Char × Candidate)} {overrides : Overrides}
    {fault : OverrideFault} :
    readOnto overrides table = .error fault ↔
      ∃ before name candidate after, table = before ++ (name, candidate) :: after ∧
        (∀ entry ∈ before, ∃ color, readEntry entry.1 entry.2 = .ok color) ∧
        readEntry name candidate = .error fault := by
  induction table generalizing overrides with
  | nil =>
    constructor
    · intro failed
      cases failed
    · rintro ⟨before, name, candidate, after, split, _⟩
      simp at split
  | cons entry rest ih =>
    obtain ⟨first, given⟩ := entry
    cases read : readEntry first given with
    | error other =>
      simp only [readOnto, read]
      constructor
      · rintro ⟨⟩
        exact ⟨[], first, given, rest, rfl, by simp, read⟩
      · rintro ⟨before, name, candidate, after, split, earlier, found⟩
        cases before with
        | nil =>
          cases split
          cases read.symm.trans found
          rfl
        | cons entry before =>
          cases split
          obtain ⟨color, fine⟩ := earlier _ List.mem_cons_self
          cases read.symm.trans fine
    | ok color =>
      simp only [readOnto, read]
      rw [ih]
      constructor
      · rintro ⟨before, name, candidate, after, rfl, earlier, found⟩
        refine ⟨(first, given) :: before, name, candidate, after, rfl, ?_, found⟩
        intro entry member
        rcases List.mem_cons.mp member with rfl | later
        · exact ⟨color, read⟩
        · exact earlier entry later
      · rintro ⟨before, name, candidate, after, split, earlier, found⟩
        cases before with
        | nil =>
          cases split
          cases read.symm.trans found
        | cons entry before =>
          cases split
          exact ⟨before, name, candidate, after, rfl,
            fun entry member => earlier entry (List.mem_cons_of_mem _ member), found⟩

end Overrides

namespace Settings

section Values

variable {room : Config.Room} {table : Config.Table} {request : Request}

/-- A refused value breaks the run if the complaint cannot show it. -/
theorem refuse_eq_broken_iff {refusal : List Char → Refusal} {value : Config.Value} :
    (∃ breakdown, refuse room refusal value = .broken breakdown) ↔ value.Unshowable room := by
  have showable := @Config.Value.display_ok_iff room value
  rw [refuse]
  split
  · rename_i shown found
    refine iff_of_false ?_ (showable.mp ⟨shown, found⟩)
    rintro ⟨breakdown, broken⟩
    cases broken
  all_goals
    rename_i found
    refine iff_of_true ⟨_, rfl⟩ ?_
    by_contra fine
    obtain ⟨shown, other⟩ := showable.mpr fine
    cases found.symm.trans other

/-- A value that is there but not of the right kind. -/
def Misfit (key : String) (fits : Config.Value → Prop) (table : Config.Table)
    (value : Config.Value) : Prop :=
  table.lookup key.toList = some value ∧ ¬ fits value

/-- A truth value. -/
def IsFlag (value : Config.Value) : Prop := ∃ b, value = .flag b

/-- A whole number. -/
def IsWhole (value : Config.Value) : Prop := ∃ n, value = .whole n

theorem plainOf_cases (room : Config.Room) (table : Config.Table) :
    ((∃ plain, plainOf room table = .ok plain) ∧ ∀ value, ¬ Misfit "plain" IsFlag table value) ∨
    ∃ value, Misfit "plain" IsFlag table value ∧
      plainOf room table = .error (refuse room .plain value) := by
  rw [plainOf]
  split
  · rename_i absent
    refine .inl ⟨⟨_, rfl⟩, ?_⟩
    rintro value ⟨found, _⟩
    cases absent.symm.trans found
  · rename_i plain present
    refine .inl ⟨⟨_, rfl⟩, ?_⟩
    rintro value ⟨found, other⟩
    cases present.symm.trans found
    exact other ⟨plain, rfl⟩
  · rename_i value other present
    exact .inr ⟨value, ⟨present, fun ⟨b, same⟩ => other b same⟩, rfl⟩

theorem seedOf_cases (room : Config.Room) (table : Config.Table) :
    ((∃ seed, seedOf room table = .ok seed) ∧ ∀ value, ¬ Misfit "seed" IsWhole table value) ∨
    ∃ value, Misfit "seed" IsWhole table value ∧
      seedOf room table = .error (refuse room .seed value) := by
  rw [seedOf]
  split
  · rename_i absent
    refine .inl ⟨⟨_, rfl⟩, ?_⟩
    rintro value ⟨found, _⟩
    cases absent.symm.trans found
  · rename_i seed present
    refine .inl ⟨⟨_, rfl⟩, ?_⟩
    rintro value ⟨found, other⟩
    cases present.symm.trans found
    exact other ⟨seed, rfl⟩
  · rename_i value other present
    exact .inr ⟨value, ⟨present, fun ⟨n, same⟩ => other n same⟩, rfl⟩

/-- A table of colors whose first bad entry names a color with a channel that is not a numeral. -/
def BadChannel (table : Config.Table) : Prop :=
  ∃ before name value after part fault,
    table.lookup "colors".toList = some (.table (before ++ (name, .text value) :: after)) ∧
    (∀ entry ∈ before, ∃ color, Overrides.readEntry entry.1 (candidate entry.2) = .ok color) ∧
    (Overrides.category? name).isSome ∧ Color.read value = .error (.channel part fault)

theorem readEntry_eq_channel_iff {name : List Char} {given : Candidate} {part : List Char}
    {fault : Text.Numeral.Fault} :
    Overrides.readEntry name given = .error (.color (.channel part fault)) ↔
      (Overrides.category? name).isSome ∧
        ∃ value, given = .text value ∧ Color.read value = .error (.channel part fault) := by
  unfold Overrides.readEntry
  split
  · rename_i unknown
    rw [unknown]
    constructor
    · intro failed
      cases failed
    · rintro ⟨known, _⟩
      cases known
  · constructor
    · intro failed
      cases failed
    · rintro ⟨_, _, ⟨⟩, _⟩
  · rename_i category value known
    rw [known]
    split
    · rename_i color read
      constructor
      · intro failed
        cases failed
      · rintro ⟨_, _, ⟨⟩, found⟩
        cases read.symm.trans found
    · rename_i other read
      constructor
      · rintro ⟨⟩
        exact ⟨rfl, value, rfl, read⟩
      · rintro ⟨_, _, ⟨⟩, found⟩
        cases read.symm.trans found
        rfl

theorem candidate_eq_text {value : Config.Value} {text : List Char}
    (same : candidate value = .text text) : value = .text text := by
  cases value with
  | text other =>
    cases same
    rfl
  | _ => cases same

theorem overrideFault_eq_broken {fault : OverrideFault} {breakdown : Breakdown}
    (broken : overrideFault fault = .broken breakdown) :
    ∃ part cause, fault = .color (.channel part cause) := by
  unfold overrideFault at broken
  split at broken
  · exact ⟨_, _, rfl⟩
  · cases broken

theorem colorsOf_eq_broken_iff :
    (∃ breakdown, colorsOf table = .error (.broken breakdown)) ↔ BadChannel table := by
  constructor
  · rintro ⟨breakdown, broken⟩
    unfold colorsOf at broken
    split at broken
    · cases broken
    · rename_i entries present
      cases read : Overrides.read (entries.map fun entry => (entry.1, candidate entry.2)) with
      | ok overrides =>
        rw [read] at broken
        cases broken
      | error fault =>
        rw [read] at broken
        obtain ⟨part, cause, rfl⟩ := overrideFault_eq_broken (Except.error.inj broken)
        obtain ⟨before, name, given, after, split, earlier, found⟩ :=
          Overrides.readOnto_eq_error_iff.mp read
        obtain ⟨known, text, rfl, channel⟩ := readEntry_eq_channel_iff.mp found
        obtain ⟨front, back, rfl, rfl, rest⟩ := List.map_eq_append_iff.mp split
        obtain ⟨entry, tail, rfl, same, rfl⟩ := List.map_eq_cons_iff.mp rest
        obtain ⟨key, value⟩ := entry
        obtain ⟨rfl, isText⟩ := Prod.mk.inj same
        cases candidate_eq_text isText
        refine ⟨front, key, text, tail, part, cause, present, ?_, known, channel⟩
        intro entry member
        exact earlier _ (List.mem_map_of_mem member)
    · cases broken
  · rintro ⟨before, name, value, after, part, fault, present, earlier, known, channel⟩
    have read : Overrides.read ((before ++ (name, .text value) :: after).map
        fun entry => (entry.1, candidate entry.2)) = .error (.color (.channel part fault)) := by
      refine Overrides.readOnto_eq_error_iff.mpr ⟨_, name, .text value, _, List.map_append, ?_,
        readEntry_eq_channel_iff.mpr ⟨known, value, rfl, channel⟩⟩
      intro entry member
      obtain ⟨original, inside, rfl⟩ := List.mem_map.mp member
      exact earlier original inside
    refine ⟨.numeral part fault, ?_⟩
    rw [colorsOf, present]
    dsimp only
    rw [read]
    rfl

/-- A configuration with a value that breaks the run. The values are looked at in turn, and one that
is refused keeps those after it from being looked at. -/
inductive Spoils (room : Config.Room) (table : Config.Table) : Prop where
  | plain {value : Config.Value} (misfit : Misfit "plain" IsFlag table value)
      (unshowable : value.Unshowable room) : Spoils room table
  | seed {value : Config.Value} (plainFits : ∀ value, ¬ Misfit "plain" IsFlag table value)
      (misfit : Misfit "seed" IsWhole table value) (unshowable : value.Unshowable room) :
      Spoils room table
  | color (plainFits : ∀ value, ¬ Misfit "plain" IsFlag table value)
      (seedFits : ∀ value, ¬ Misfit "seed" IsWhole table value) (channel : BadChannel table) :
      Spoils room table

theorem Misfit.unique {key : String} {fits : Config.Value → Prop} {value other : Config.Value}
    (misfit : Misfit key fits table value) (again : Misfit key fits table other) : value = other :=
  Option.some.inj (misfit.1.symm.trans again.1)

theorem combine_eq_broken_iff :
    (∃ breakdown, combine room request table = .error (.broken breakdown)) ↔
      Spoils room table := by
  rcases plainOf_cases room table with ⟨⟨plain, plainFound⟩, plainFits⟩ | ⟨value, misfit, plainFound⟩
  · rcases seedOf_cases room table with ⟨⟨seed, seedFound⟩, seedFits⟩ | ⟨value, misfit, seedFound⟩
    · have colors : (∃ breakdown, combine room request table = .error (.broken breakdown)) ↔
          ∃ breakdown, colorsOf table = .error (.broken breakdown) := by
        rw [combine, plainFound, seedFound]
        cases colorsOf table with
        | ok colors =>
          constructor
          · rintro ⟨breakdown, ⟨⟩⟩
          · rintro ⟨breakdown, ⟨⟩⟩
        | error fault =>
          constructor
          · rintro ⟨breakdown, ⟨⟩⟩
            exact ⟨breakdown, rfl⟩
          · rintro ⟨breakdown, ⟨⟩⟩
            exact ⟨breakdown, rfl⟩
      rw [colors, colorsOf_eq_broken_iff]
      constructor
      · exact .color plainFits seedFits
      · intro spoils
        cases spoils with
        | plain misfit _ => exact absurd misfit (plainFits _)
        | seed _ misfit _ => exact absurd misfit (seedFits _)
        | color _ _ channel => exact channel
    · have refused : combine room request table = .error (refuse room .seed value) := by
        rw [combine, plainFound, seedFound]
        rfl
      rw [refused]
      simp only [Except.error.injEq]
      rw [refuse_eq_broken_iff]
      constructor
      · exact .seed plainFits misfit
      · intro spoils
        cases spoils with
        | plain other _ => exact absurd other (plainFits _)
        | seed _ other unshowable => exact misfit.unique other ▸ unshowable
        | color _ seedFits _ => exact absurd misfit (seedFits _)
  · have refused : combine room request table = .error (refuse room .plain value) := by
      rw [combine, plainFound]
      rfl
    rw [refused]
    simp only [Except.error.injEq]
    rw [refuse_eq_broken_iff]
    constructor
    · exact .plain misfit
    · intro spoils
      cases spoils with
      | plain other unshowable => exact misfit.unique other ▸ unshowable
      | seed plainFits _ _ => exact absurd misfit (plainFits _)
      | color plainFits _ _ => exact absurd misfit (plainFits _)

end Values

/-- The bytes of a configuration file that break the run instead of being refused. What a text says
is what it is read as if the room is unbounded. -/
inductive Breaks (room : Config.Room) (bytes : List UInt8) : Prop where
  | encoding (foreign : ∀ text, bytes ≠ Text.Utf8.encode text) : Breaks room bytes
  | depth {text : List Char} (encoded : bytes = Text.Utf8.encode text)
      (deep : Config.TooDeep room text) : Breaks room bytes
  | numeral {text digits : List Char} {fault : Text.Numeral.Fault}
      (encoded : bytes = Text.Utf8.encode text)
      (read : Config.read .unbounded text = .error (.numeral digits fault)) : Breaks room bytes
  | value {text : List Char} {table : Config.Table} (encoded : bytes = Text.Utf8.encode text)
      (read : Config.read .unbounded text = .ok table) (spoils : Spoils room table) :
      Breaks room bytes

section Files

variable {room : Config.Room} {path : Path} {bytes : List UInt8} {text : List Char} {disk : Disk}
  {request : Request}

theorem readConfig_of_foreign (foreign : ∀ text, bytes ≠ Text.Utf8.encode text) :
    ∃ fault, readConfig room path bytes = .error (.broken (.undecodable fault)) := by
  rw [readConfig]
  cases decoded : Text.Utf8.decode bytes with
  | ok text => exact absurd (Text.Utf8.decode_eq_ok_iff.mp decoded) (foreign text)
  | error fault => exact ⟨fault, rfl⟩

/-- What the fault of a text means for the run. -/
def faultOf (path : Path) : Config.ReadFault → SettingsFault
  | .malformed complaint => .refused (.malformed path complaint)
  | .numeral digits fault => .broken (.numeral digits fault)
  | .tooDeep complaint => .broken (.tooDeep complaint)

theorem readConfig_encode (room : Config.Room) (path : Path) (text : List Char) :
    readConfig room path (Text.Utf8.encode text) =
      (Config.read room text).mapError (faultOf path) := by
  rw [readConfig, Text.Utf8.decode_eq_ok_iff.mpr rfl]
  dsimp only
  cases Config.read room text with
  | ok table => rfl
  | error fault => cases fault <;> rfl

/-- Once a text is known, only what it reads as can break the run. -/
theorem breaks_encode_iff : Breaks room (Text.Utf8.encode text) ↔
    Config.TooDeep room text ∨
    (∃ digits fault, Config.read room text = .error (.numeral digits fault)) ∨
    ∃ table, Config.read room text = .ok table ∧ Spoils room table := by
  rcases Config.tooDeep_or_read_eq room text with deep | same
  · exact iff_of_true (.depth rfl deep) (.inl deep)
  · rw [same]
    constructor
    · intro breaks
      cases breaks with
      | encoding foreign => exact absurd rfl (foreign text)
      | depth encoded deep =>
        cases Text.Utf8.encode_injective encoded
        exact .inl deep
      | numeral encoded read =>
        cases Text.Utf8.encode_injective encoded
        exact .inr (.inl ⟨_, _, read⟩)
      | value encoded read spoils =>
        cases Text.Utf8.encode_injective encoded
        exact .inr (.inr ⟨_, read, spoils⟩)
    · rintro (deep | ⟨digits, fault, read⟩ | ⟨table, read, spoils⟩)
      · exact .depth rfl deep
      · exact .numeral rfl read
      · exact .value rfl read spoils

theorem resolve_of_found (found : disk (configPath request) = .ok bytes) :
    (resolve room disk request).2 =
      (readConfig room (configPath request) bytes).bind (combine room request) := by
  rw [resolve, loadConfig, found]

theorem resolve_eq_broken_iff (found : disk (configPath request) = .ok bytes) :
    (∃ breakdown, (resolve room disk request).2 = .error (.broken breakdown)) ↔
      Breaks room bytes := by
  rw [resolve_of_found found]
  by_cases encoded : ∃ text, bytes = Text.Utf8.encode text
  · obtain ⟨text, rfl⟩ := encoded
    rw [readConfig_encode, breaks_encode_iff, Config.TooDeep]
    cases read : Config.read room text with
    | ok table =>
      have combined := @combine_eq_broken_iff room table request
      simpa [Except.mapError, Except.bind] using combined
    | error fault =>
      cases fault with
      | malformed complaint => simp [Except.mapError, Except.bind, faultOf]
      | numeral digits fault => simp [Except.mapError, Except.bind, faultOf]
      | tooDeep complaint => simp [Except.mapError, Except.bind, faultOf]
  · have foreign : ∀ text, bytes ≠ Text.Utf8.encode text := fun text same => encoded ⟨text, same⟩
    obtain ⟨fault, broken⟩ := @readConfig_of_foreign room (configPath request) bytes foreign
    rw [broken]
    exact ⟨fun _ => .encoding foreign, fun _ => ⟨_, rfl⟩⟩

end Files

end Settings

section Runs

variable {room : Config.Room} {disk : Disk} {scripts : List (List Char)} {unseeded : Supply}
  {request : Request} {exit : Prompt.Exit}

theorem runRequest_of_refused {refusal : Refusal}
    (refused : (Settings.resolve room disk request).2 = .error (.refused refusal)) :
    runRequest room disk scripts unseeded request exit =
      .ok ((Transcript.ofComplaint 2 refusal.message).withJournal request.verbose
        (Settings.resolve room disk request).1) := by
  rw [runRequest]
  dsimp only
  rw [refused]
  rfl

theorem runRequest_of_broken {breakdown : Breakdown}
    (broken : (Settings.resolve room disk request).2 = .error (.broken breakdown)) :
    runRequest room disk scripts unseeded request exit = .error breakdown := by
  rw [runRequest]
  dsimp only
  rw [broken]
  rfl

theorem run_of_accepted {arguments : List (List Char)}
    (accepted : Request.ofArguments arguments = .ok request) :
    run room arguments disk scripts unseeded exit =
      runRequest room disk scripts unseeded request exit := by
  rw [run, accepted]

/-- Bytes that break a run are told apart from those that are used or refused, whatever room there
is for nested values. A refused configuration ends the run with code 2, a complaint and no output; so
does every text that is not a well-formed document, unless its values are nested too deeply for the
room, which can only happen if the room is bounded. Bytes that encode no text always break the run. -/
theorem config_answered_iff {arguments : List (List Char)} {bytes : List UInt8}
    (accepted : Request.ofArguments arguments = .ok request)
    (found : disk (Settings.configPath request) = .ok bytes) :
    ((∃ settings, (Settings.resolve room disk request).2 = .ok settings) ∨
        (∃ refusal, (Settings.resolve room disk request).2 = .error (.refused refusal)) ↔
      ¬ Settings.Breaks room bytes) ∧
    (Settings.Breaks room bytes → ∃ breakdown,
      run room arguments disk scripts unseeded exit = .error breakdown) ∧
    (∀ refusal, (Settings.resolve room disk request).2 = .error (.refused refusal) →
      ∃ transcript, run room arguments disk scripts unseeded exit = .ok transcript ∧
        transcript.ending = .returned 2 ∧ transcript.output = [] ∧
        transcript.complaints = "error: ".toList ++ refusal.message ++ ['\n']) ∧
    (∀ text complaint, bytes = Text.Utf8.encode text →
      Config.read .unbounded text = .error (.malformed complaint) →
      Config.TooDeep room text ∨ (Settings.resolve room disk request).2 =
        .error (.refused (.malformed (Settings.configPath request) complaint))) ∧
    (∀ text, ¬ Config.TooDeep .unbounded text) ∧
    ((∀ text, bytes ≠ Text.Utf8.encode text) → ∃ fault,
      run room arguments disk scripts unseeded exit = .error (.undecodable fault)) := by
  rw [run_of_accepted accepted, ← Settings.resolve_eq_broken_iff found]
  refine ⟨?_, ?_, ?_, ?_, Config.not_tooDeep_unbounded, ?_⟩
  · cases (Settings.resolve room disk request).2 with
    | ok settings => simp
    | error fault =>
      cases fault with
      | refused refusal => simp
      | broken breakdown => simp
  · rintro ⟨breakdown, broken⟩
    exact ⟨breakdown, runRequest_of_broken broken⟩
  · intro refusal refused
    exact ⟨_, runRequest_of_refused refused, rfl, rfl, rfl⟩
  · rintro text complaint rfl read
    refine (Config.tooDeep_or_read_eq room text).imp_right fun same => ?_
    rw [Settings.resolve_of_found found, Settings.readConfig_encode, same, read]
    rfl
  · intro foreign
    obtain ⟨fault, broken⟩ := Settings.readConfig_of_foreign foreign
    refine ⟨fault, runRequest_of_broken ?_⟩
    rw [Settings.resolve_of_found found, broken]
    rfl

/-- Arguments that name the only file of a disk as the configuration. -/
theorem lone_config (bytes : List UInt8) :
    ∃ request, Request.ofArguments ["--config".toList, "c.toml".toList] = .ok request ∧
      Settings.configPath request = ⟨[], ["c.toml".toList]⟩ ∧
      Files.disk [(["c.toml".toList], .file bytes)] (Settings.configPath request) = .ok bytes := by
  have accepted : Request.ofArguments ["--config".toList, "c.toml".toList] =
      .ok { config := some "c.toml".toList } := by decide +kernel
  have path : Settings.configPath { config := some "c.toml".toList } =
      ⟨[], ["c.toml".toList]⟩ := by decide +kernel
  refine ⟨_, accepted, path, ?_⟩
  rw [path]
  rfl

/-- The document `plain =` lacks a value. It does not break the run, which ends with code 2 and a
complaint that says where the value is missing. A value that is refused although it reaches down to a
level that cannot be shown does break the run. -/
theorem config_answered_iff_lacking_value :
    (¬ Settings.Breaks .unbounded (Text.Utf8.encode "plain = \n".toList) ∧
      ∃ transcript,
        run .unbounded ["--config".toList, "c.toml".toList]
          (Files.disk [(["c.toml".toList], .file (Text.Utf8.encode "plain = \n".toList))]) []
          (.cycle ⟨[⟨0, 0, 0⟩], List.cons_ne_nil _ _, 0⟩) .endOfInput = .ok transcript ∧
        transcript.ending = .returned 2 ∧ transcript.output = [] ∧
        transcript.complaints = "error: c.toml: Invalid value (at line 1, column 9)\n".toList) ∧
    ∃ breakdown,
      run ⟨fun _ _ => none, fun level => level < 3⟩ ["--config".toList, "c.toml".toList]
        (Files.disk [(["c.toml".toList], .file (Text.Utf8.encode
          ['p', 'l', 'a', 'i', 'n', '.', 'a', '.', 'b', '=', '1']))]) []
        (.cycle ⟨[⟨0, 0, 0⟩], List.cons_ne_nil _ _, 0⟩) .endOfInput = .error breakdown := by
  refine ⟨?_, ?_⟩
  · obtain ⟨request, accepted, path, found⟩ := lone_config (Text.Utf8.encode "plain = \n".toList)
    have read : Config.read .unbounded "plain = \n".toList =
        .error (.malformed "Invalid value (at line 1, column 9)".toList) := by
      have complaint : (Config.read .unbounded "plain = \n".toList).map (fun _ => ()) =
          .error (.malformed "Invalid value (at line 1, column 9)".toList) := by decide +kernel
      cases found : Config.read .unbounded "plain = \n".toList with
      | ok table =>
        rw [found] at complaint
        cases complaint
      | error fault =>
        rw [found] at complaint
        cases complaint
        rfl
    obtain ⟨answered, _, refuses, malformed, bounded, _⟩ := config_answered_iff accepted found
    have refused := (malformed _ _ rfl read).resolve_left (bounded _)
    obtain ⟨transcript, runs, ending, output, complaints⟩ := refuses _ refused
    refine ⟨answered.mp (.inr ⟨_, refused⟩), transcript, runs, ending, output, ?_⟩
    rw [complaints, path]
    decide +kernel
  · obtain ⟨request, accepted, path, found⟩ := lone_config (Text.Utf8.encode
      ['p', 'l', 'a', 'i', 'n', '.', 'a', '.', 'b', '=', '1'])
    have key : "plain".toList = ['p', 'l', 'a', 'i', 'n'] := by decide +kernel
    have read : Config.read .unbounded ['p', 'l', 'a', 'i', 'n', '.', 'a', '.', 'b', '=', '1'] =
        .ok [("plain".toList, .table [(['a'], .table [(['b'], .whole 1)])])] := by
      rw [key]
      rfl
    obtain ⟨_, breaks, _⟩ := config_answered_iff accepted found
    refine breaks (.value rfl read (.plain ⟨rfl, ?_⟩ (.inl ⟨3, by decide, by decide, rfl⟩)))
    rintro ⟨b, flag⟩
    cases flag

/-- A configuration file with a single byte that begins no character breaks the run. -/
theorem config_undecodable :
    run .unbounded ["--config".toList, "c.toml".toList]
      (Files.disk [(["c.toml".toList], .file [0xff])]) []
      (.cycle ⟨[⟨0, 0, 0⟩], List.cons_ne_nil _ _, 0⟩) .endOfInput =
        .error (.undecodable ⟨0, 1, 0xff, .startByte⟩) := by
  obtain ⟨request, accepted, _, found⟩ := lone_config [0xff]
  have broken : (Settings.resolve .unbounded
      (Files.disk [(["c.toml".toList], .file [0xff])]) request).2 =
        .error (.broken (.undecodable ⟨0, 1, 0xff, .startByte⟩)) := by
    rw [Settings.resolve_of_found found]
    rfl
  rw [run_of_accepted accepted, runRequest_of_broken broken]

end Runs

end Astra
