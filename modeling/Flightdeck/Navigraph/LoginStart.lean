import Flightdeck.Graphics.Document
import Flightdeck.Navigraph.Settings

/-!
# What is left of the settings

Turning off the login start changes the lines that turn it on and no other, as far as the file is
UTF-8.
-/

namespace Flightdeck.Navigraph

open Foundation
open FrameworkRepair (lines)
open GraphicsSettings (Text isWhitespace trim trim_around)

abbrev encode (text : Text) : Bytes := text.flatMap String.utf8EncodeChar

/-! ## Lines and what is around them -/

theorem trim_snoc (line : Text) {c : Char} (white : isWhitespace c = true) :
    trim (line ++ [c]) = trim line := by
  unfold trim
  rw [List.dropWhile_append]
  split
  · next none =>
    rw [List.isEmpty_iff.mp none, List.dropWhile_cons, white]
    rfl
  · rw [List.reverse_append, List.reverse_singleton, List.singleton_append, List.dropWhile_cons,
      white]
    rfl

/-- The lines that `ini_value` reads are those that `without_login_start` reads. -/
theorem map_trim_lines (text : Text) :
    (lines (String.ofList text)).map trim = (splitInclusive '\n' text).map trim := by
  have newline (line : Text) : trim (line ++ ['\n']) = trim line := trim_snoc line (by decide)
  have carriage (line : Text) :
      trim (if line.getLast? = some '\r' then line.dropLast else line) = trim line := by
    by_cases ends : line.getLast? = some '\r'
    · rw [if_pos ends]
      have whole : line.dropLast ++ ['\r'] = line :=
        List.dropLast_append_getLast? '\r' (Option.mem_def.mpr ends)
      conv_rhs => rw [← whole]
      exact (trim_snoc _ (by decide)).symm
    · rw [if_neg ends]
  show ((cutLines '\n' (String.ofList text).toList).1.map _ ++ _).map trim = _
  rw [String.toList_ofList, splitInclusive_cutLines, List.map_append, List.map_append,
    List.map_map, List.map_map]
  congr 1
  apply List.map_congr_left
  intro line _
  exact (carriage line).trans (newline line).symm

theorem iniValueFrom_congr {sec key : Text} {inside : Bool} {texts others : List Text}
    (same : texts.map trim = others.map trim) :
    iniValueFrom sec key inside texts = iniValueFrom sec key inside others := by
  induction texts generalizing inside others with
  | nil =>
    cases others with
    | nil => rfl
    | cons => cases same
  | cons line rest ih =>
    cases others with
    | nil => cases same
    | cons other others =>
      have ⟨first, later⟩ := List.cons.inj same
      unfold iniValueFrom
      rw [first, ih later, ih later]

theorem trimEnd_append (line : Text) :
    trimEnd line ++ (line.reverse.takeWhile isWhitespace).reverse = line := by
  unfold trimEnd
  rw [← List.reverse_append, List.takeWhile_append_dropWhile, List.reverse_reverse]

theorem ending_eq (line : Text) : ending line = (line.reverse.takeWhile isWhitespace).reverse := by
  have cut := congrArg (List.drop (trimEnd line).length) (trimEnd_append line)
  rw [List.drop_left] at cut
  exact cut.symm

theorem trimEnd_ending (line : Text) : trimEnd line ++ ending line = line := by
  rw [ending_eq]
  exact trimEnd_append line

theorem ending_white {line : Text} {c : Char} (there : c ∈ ending line) :
    isWhitespace c = true := by
  rw [ending_eq, List.mem_reverse] at there
  exact List.mem_takeWhile_imp there

theorem mem_of_mem_ending {line : Text} {c : Char} (there : c ∈ ending line) : c ∈ line := by
  rw [← trimEnd_ending line]
  exact List.mem_append_right _ there

theorem ending_snoc (line : Text) {c : Char} (white : isWhitespace c = true) :
    ending (line ++ [c]) = ending line ++ [c] := by
  rw [ending_eq, ending_eq, List.reverse_append, List.reverse_singleton, List.singleton_append,
    List.takeWhile_cons, white, if_pos rfl, List.reverse_cons]

/-- The white space at the end is all that is at the end. -/
theorem ending_append {core white : Text} (all : ∀ c ∈ white, isWhitespace c = true)
    (last : ∀ c, core.getLast? = some c → isWhitespace c = false) :
    ending (core ++ white) = white := by
  have none : core.reverse.takeWhile isWhitespace = [] := by
    cases here : core.reverse with
    | nil => rfl
    | cons c rest =>
      have first : core.getLast? = some c := by rw [← List.head?_reverse, here]; rfl
      rw [List.takeWhile_cons, last c first]
      rfl
  rw [ending_eq, List.reverse_append, List.takeWhile_append_of_pos, none, List.append_nil,
    List.reverse_reverse]
  intro c there
  exact all c (List.mem_reverse.mp there)

/-! ## A line that was written -/

theorem last_off {c : Char} (last : OFF.getLast? = some c) : isWhitespace c = false := by
  have zero : OFF.getLast? = some '0' := by decide
  rw [← Option.some.inj (zero.symm.trans last)]
  decide

theorem trim_off {white : Text} (all : ∀ c ∈ white, isWhitespace c = true) :
    trim (OFF ++ white) = OFF := by
  have none : ∀ c ∈ ([] : Text), isWhitespace c = true := by nofun
  have first : ∀ c, OFF.head? = some c → isWhitespace c = false := by
    intro c head
    have letter : OFF.head? = some 'a' := by decide
    rw [← Option.some.inj (letter.symm.trans head)]
    decide
  exact trim_around none all first (fun _ => last_off) (by decide)

theorem autostart_off {white : Text} (all : ∀ c ∈ white, isWhitespace c = true) :
    autostart (OFF ++ white) = some ['0'] := by
  unfold autostart
  rw [trim_off all]
  decide

theorem header_off {white : Text} (all : ∀ c ∈ white, isWhitespace c = true) :
    header (trim (OFF ++ white)) = false := by
  rw [trim_off all]
  rfl

theorem ending_off {white : Text} (all : ∀ c ∈ white, isWhitespace c = true) :
    ending (OFF ++ white) = white :=
  ending_append all fun _ => last_off

/-! ## The lines of a section -/

/-- Whether the lines after this one are inside `[simlink]`. -/
def sectionAfter (inside : Bool) (line : Text) : Bool :=
  if header (trim line) then trim line == bracketed SIMLINK else inside

/-- An assignment of `autostart_app` inside `[simlink]`. -/
def assigns (inside : Bool) (line : Text) : Bool :=
  inside && !header (trim line) && (autostart line).isSome

/-- Some assignment is not zero. -/
def startsOn : Bool → List Text → Bool
  | _, [] => false
  | inside, line :: rest =>
    (assigns inside line && turnsOn line) || startsOn (sectionAfter inside line) rest

/-- The line that is written for a line. -/
def lineFor (inside : Bool) (line : Text) : Text :=
  if assigns inside line && turnsOn line then OFF ++ ending line else line

theorem assigns_of_turnsOn {line : Text} (turns : turnsOn line = true) (inside : Bool) :
    assigns inside line = (inside && !header (trim line)) := by
  have some : (autostart line).isSome = true := by
    unfold turnsOn at turns
    cases here : autostart line with
    | none =>
      rw [here] at turns
      cases turns
    | some value => rfl
  unfold assigns
  rw [some, Bool.and_true]

theorem turnedOff_cons (inside : Bool) (line : Text) (rest : List Text) :
    turnedOff inside (line :: rest) =
      (lineFor inside line :: (turnedOff (sectionAfter inside line) rest).1,
        (assigns inside line && turnsOn line) ||
          (turnedOff (sectionAfter inside line) rest).2) := by
  unfold lineFor sectionAfter
  rw [turnedOff]
  by_cases head : header (trim line)
  · have none : assigns inside line = false := by
      unfold assigns
      rw [head, Bool.not_true, Bool.and_false, Bool.false_and]
    rw [if_pos head, if_pos head, none]
    rfl
  · rw [if_neg head, if_neg head]
    rw [Bool.not_eq_true] at head
    by_cases turns : turnsOn line
    · rw [assigns_of_turnsOn turns, turns, head, Bool.not_false, Bool.and_true, Bool.and_true]
      cases inside <;> rfl
    · rw [Bool.not_eq_true] at turns
      rw [turns, Bool.and_false, Bool.and_false]
      rfl

theorem turnedOff_changed (inside : Bool) (texts : List Text) :
    (turnedOff inside texts).2 = startsOn inside texts := by
  induction texts generalizing inside with
  | nil => rfl
  | cons line rest ih =>
    rw [turnedOff_cons, ih]
    rfl

/-- A line that is written belongs to the section of the line before. -/
theorem lineFor_spec (inside : Bool) (line : Text) :
    sectionAfter inside (lineFor inside line) = sectionAfter inside line ∧
      (assigns inside (lineFor inside line) && turnsOn (lineFor inside line)) = false := by
  by_cases turns : assigns inside line && turnsOn line
  · have white : ∀ c ∈ ending line, isWhitespace c = true := fun _ => ending_white
    have plain : header (trim line) = false := by
      have assigned := (Bool.and_eq_true_iff.mp turns).1
      unfold assigns at assigned
      simpa using (Bool.and_eq_true_iff.mp (Bool.and_eq_true_iff.mp assigned).1).2
    have written : lineFor inside line = OFF ++ ending line := if_pos turns
    unfold sectionAfter turnsOn
    rw [written, header_off white, plain, autostart_off white]
    exact ⟨rfl, Bool.and_false _⟩
  · unfold lineFor
    rw [if_neg turns]
    exact ⟨rfl, Bool.eq_false_of_not_eq_true turns⟩

theorem startsOn_turnedOff (inside : Bool) (texts : List Text) :
    startsOn inside (turnedOff inside texts).1 = false := by
  induction texts generalizing inside with
  | nil => rfl
  | cons line rest ih =>
    have ⟨section_, off⟩ := lineFor_spec inside line
    rw [turnedOff_cons, startsOn, section_, off, ih]
    rfl

/-- The lines that are written are cut where the lines of the file are. -/
theorem cut_turnedOff {inside : Bool} {texts : List Text} (cut : Cut '\n' texts) :
    Cut '\n' (turnedOff inside texts).1 := by
  induction texts generalizing inside with
  | nil => trivial
  | cons line rest ih =>
    rw [turnedOff_cons]
    rcases cut with ⟨⟨body, absent, rfl⟩, later⟩ | ⟨⟨some, absent⟩, rfl⟩
    · apply Or.inl
      refine ⟨?_, ih later⟩
      unfold lineFor
      split
      · refine ⟨OFF ++ ending body, ?_, ?_⟩
        · rw [List.mem_append, not_or]
          exact ⟨by decide, fun there => absent (mem_of_mem_ending there)⟩
        · rw [ending_snoc body (by decide), List.append_assoc]
      · exact ⟨body, absent, rfl⟩
    · apply Or.inr
      refine ⟨?_, rfl⟩
      unfold lineFor
      split
      · refine ⟨List.append_ne_nil_of_left_ne_nil (by decide) _, ?_⟩
        rw [List.mem_append, not_or]
        exact ⟨by decide, fun there => absent (mem_of_mem_ending there)⟩
      · exact ⟨some, absent⟩

/-! ## The file -/

def linesOf (raw : Bytes) : List Bytes := splitInclusive NEWLINE raw

/-- Some assignment in the file turns the login start on. -/
def startsWithLogin (raw : Bytes) : Bool := startsOn false ((linesOf raw).map lossyChars)

theorem edited_off {raw : Bytes} (off : startsWithLogin raw = false) : edited raw = raw := by
  unfold startsWithLogin linesOf at off
  rw [← splitInclusive_lossyChars] at off
  unfold edited withoutLoginStart
  rw [turnedOff_changed, off]
  rfl

theorem edited_on {raw : Bytes} (on : startsWithLogin raw = true) :
    edited raw = encode (turnedOff false ((linesOf raw).map lossyChars)).1.flatten := by
  unfold startsWithLogin linesOf at on
  rw [← splitInclusive_lossyChars] at on
  unfold edited withoutLoginStart linesOf
  rw [turnedOff_changed, on, if_pos rfl, ← splitInclusive_lossyChars]
  exact utf8_ofList _

theorem linesOf_edited {raw : Bytes} (on : startsWithLogin raw = true) :
    linesOf (edited raw) = (turnedOff false ((linesOf raw).map lossyChars)).1.map encode := by
  have cut : Cut '\n' (turnedOff false ((linesOf raw).map lossyChars)).1 := by
    apply cut_turnedOff
    unfold linesOf
    rw [← splitInclusive_lossyChars]
    exact cut_splitInclusive _ _
  rw [edited_on on]
  unfold linesOf at cut ⊢
  rw [splitInclusive_encode, splitInclusive_flatten _ _ cut]

theorem lossyLines_edited {raw : Bytes} (on : startsWithLogin raw = true) :
    (linesOf (edited raw)).map lossyChars =
      (turnedOff false ((linesOf raw).map lossyChars)).1 := by
  rw [linesOf_edited on, List.map_map]
  have same : lossyChars ∘ encode = id := funext lossyChars_encode
  rw [same, List.map_id]

theorem startsWithLogin_edited (raw : Bytes) : startsWithLogin (edited raw) = false := by
  cases on : startsWithLogin raw with
  | false => rwa [edited_off on]
  | true =>
    unfold startsWithLogin
    rw [lossyLines_edited on]
    exact startsOn_turnedOff false _

theorem edited_edited (raw : Bytes) : edited (edited raw) = edited raw :=
  edited_off (startsWithLogin_edited raw)

/-! ## The values -/

theorem bracketed_inj {name name' : Text} (same : bracketed name = bracketed name') :
    name = name' :=
  List.append_cancel_right (List.cons.inj same).2

theorem iniValueFrom_skip {sec key : Text} {here : Bool} {line : Text} (rest : List Text)
    (plain : header (trim line) = false)
    (other : here = true → ∀ row, splitOnce (trim line) = some row → trim row.1 ≠ key) :
    iniValueFrom sec key here (line :: rest) = iniValueFrom sec key here rest := by
  conv_lhs => unfold iniValueFrom
  rw [plain, if_neg (by decide)]
  cases here with
  | false => rfl
  | true =>
    cases found : splitOnce (trim line) with
    | none => rfl
    | some row => exact if_neg fun same => other rfl row found (beq_iff_eq.mp same)

/-- What is assigned is `autostart_app`. -/
theorem name_of_autostart {line : Text} (given : (autostart line).isSome) {row : Text × Text}
    (found : splitOnce (trim line) = some row) : trim row.1 = AUTOSTART := by
  unfold autostart at given
  rw [found] at given
  by_cases same : trim row.1 == AUTOSTART
  · exact beq_iff_eq.mp same
  · dsimp only at given
    rw [if_neg same] at given
    cases given

/-- The loop of `ini_value` finds the same in the lines that are written.  By induction on the
lines: the reader of the section of Simlink is inside it where the writer is, and any other reader
is not. -/
theorem iniValueFrom_turnedOff {sec key : Text} (other : sec ≠ SIMLINK ∨ key ≠ AUTOSTART)
    {inside here : Bool} (agree : sec = SIMLINK → here = inside)
    (apart : sec ≠ SIMLINK → (here && inside) = false) (texts : List Text) :
    iniValueFrom sec key here (turnedOff inside texts).1 = iniValueFrom sec key here texts := by
  induction texts generalizing inside here with
  | nil => rfl
  | cons line rest ih =>
    rw [turnedOff_cons]
    by_cases turns : assigns inside line && turnsOn line
    · have written : lineFor inside line = OFF ++ ending line := if_pos turns
      have white : ∀ c ∈ ending line, isWhitespace c = true := fun _ => ending_white
      have assigned := (Bool.and_eq_true_iff.mp turns).1
      unfold assigns at assigned
      rw [Bool.and_eq_true, Bool.and_eq_true, Bool.not_eq_true'] at assigned
      have ⟨⟨within, plain⟩, given⟩ := assigned
      have after : sectionAfter inside line = inside := by
        unfold sectionAfter
        rw [plain]
        rfl
      have different : here = true → AUTOSTART ≠ key := by
        intro holds same
        by_cases simlink : sec = SIMLINK
        · exact other.elim (fun differs => differs simlink) fun differs => differs same.symm
        · have none := apart simlink
          rw [holds, within] at none
          cases none
      rw [written, after, iniValueFrom_skip _ (header_off white), ih agree apart]
      · symm
        apply iniValueFrom_skip _ plain
        intro holds row found
        rw [name_of_autostart given found]
        exact different holds
      · intro holds row found
        have assigned : (autostart (OFF ++ ending line)).isSome := by
          rw [autostart_off white]
          rfl
        rw [name_of_autostart assigned found]
        exact different holds
    · have kept : lineFor inside line = line := if_neg turns
      rw [kept]
      unfold iniValueFrom sectionAfter
      by_cases head : header (trim line)
      · rw [if_pos head, if_pos head, if_pos head]
        apply ih
        · rintro rfl
          rfl
        · intro differs
          rw [Bool.and_eq_false_iff]
          by_cases same : trim line = bracketed sec
          · apply Or.inr
            rw [same]
            exact beq_eq_false_iff_ne.mpr fun equal => differs (bracketed_inj equal)
          · exact .inl (beq_eq_false_iff_ne.mpr same)
      · rw [if_neg head, if_neg head, if_neg head, ih agree apart]

theorem iniValue_edited {raw : Bytes} {sec key : Text} (other : sec ≠ SIMLINK ∨ key ≠ AUTOSTART) :
    iniValue (lossyChars (edited raw)) sec key = iniValue (lossyChars raw) sec key := by
  unfold iniValue
  rw [iniValueFrom_congr (map_trim_lines (lossyChars (edited raw))),
    iniValueFrom_congr (map_trim_lines (lossyChars raw)), splitInclusive_lossyChars,
    splitInclusive_lossyChars]
  cases on : startsWithLogin raw with
  | false => rw [edited_off on]
  | true =>
    have written := lossyLines_edited on
    unfold linesOf at written
    rw [written]
    exact iniValueFrom_turnedOff other (fun _ => rfl) (fun _ => rfl) _

/-! ## What is kept -/

/-- Every line but the assignments stands where it stood, and the assignments are zero with the
ending that they had. -/
def Kept : Bool → List Bytes → List Bytes → Prop
  | _, [], [] => True
  | inside, line :: rest, line' :: rest' =>
    (if assigns inside (lossyChars line) then
      autostart (lossyChars line') = some ['0'] ∧
        ∃ body body' white, line = body ++ white ∧ line' = body' ++ white ∧
          ending (lossyChars line) = lossyChars white ∧ ending (lossyChars line') = lossyChars white
    else line' = line) ∧ Kept (sectionAfter inside (lossyChars line)) rest rest'
  | _, _, _ => False

/-- Every line but the assignments is UTF-8. -/
def Readable : Bool → List Bytes → Prop
  | _, [] => True
  | inside, line :: rest =>
    (assigns inside (lossyChars line) = false → ∃ text, line = utf8 text) ∧
      Readable (sectionAfter inside (lossyChars line)) rest

/-- What is expected of a file after the run. -/
structure Settled (raw raw' : Bytes) : Prop where
  lines : Kept false (linesOf raw) (linesOf raw')
  untouched : startsWithLogin raw = false → raw' = raw
  off : startsWithLogin raw' = false
  again : edited raw' = raw'
  values : ∀ sec key, sec ≠ SIMLINK ∨ key ≠ AUTOSTART →
    iniValue (lossyChars raw') sec key = iniValue (lossyChars raw) sec key

/-- The ending of a line in its bytes. -/
theorem ending_bytes (line : Bytes) : ∃ body, line = body ++ encode (ending (lossyChars line)) := by
  have clean : '\uFFFD' ∉ ending (lossyChars line) := by
    intro there
    have white := ending_white there
    exact absurd white (by decide)
  have ⟨body, whole⟩ := suffix_of_lossyChars (trimEnd_ending (lossyChars line)).symm clean
  exact ⟨body, whole.symm⟩

theorem autostart_of_off {inside : Bool} {line : Text} (assigned : assigns inside line = true)
    (off : (assigns inside line && turnsOn line) = false) : autostart line = some ['0'] := by
  rw [assigned, Bool.true_and] at off
  unfold assigns at assigned
  unfold turnsOn at off
  cases given : autostart line with
  | none =>
    rw [given, Bool.and_eq_true] at assigned
    cases assigned.2
  | some value =>
    rw [given] at off
    have zero : value = ['0'] := by simpa using off
    rw [zero]

theorem kept_self {inside : Bool} {rows : List Bytes}
    (off : startsOn inside (rows.map lossyChars) = false) : Kept inside rows rows := by
  induction rows generalizing inside with
  | nil => trivial
  | cons line rest ih =>
    rw [List.map_cons, startsOn, Bool.or_eq_false_iff] at off
    refine ⟨?_, ih off.2⟩
    by_cases assigned : assigns inside (lossyChars line)
    · rw [if_pos assigned]
      have ⟨body, whole⟩ := ending_bytes line
      exact ⟨autostart_of_off assigned off.1, body, body, _, whole, whole,
        (lossyChars_encode _).symm, (lossyChars_encode _).symm⟩
    · rw [if_neg assigned]

/-- The line that is written for an assignment. -/
theorem kept_assignment {inside : Bool} {line : Bytes}
    (assigned : assigns inside (lossyChars line) = true) :
    autostart (lossyChars (encode (lineFor inside (lossyChars line)))) = some ['0'] ∧
      ∃ body body' white, line = body ++ white ∧
        encode (lineFor inside (lossyChars line)) = body' ++ white ∧
        ending (lossyChars line) = lossyChars white ∧
        ending (lossyChars (encode (lineFor inside (lossyChars line)))) = lossyChars white := by
  have ⟨body, whole⟩ := ending_bytes line
  have white : ∀ c ∈ ending (lossyChars line), isWhitespace c = true := fun _ => ending_white
  rw [lossyChars_encode]
  by_cases turns : assigns inside (lossyChars line) && turnsOn (lossyChars line)
  · have written : lineFor inside (lossyChars line) = OFF ++ ending (lossyChars line) :=
      if_pos turns
    rw [written]
    refine ⟨autostart_off white, body, encode OFF, _, whole, List.flatMap_append .., ?_, ?_⟩
    · exact (lossyChars_encode _).symm
    · rw [lossyChars_encode]
      exact ending_off white
  · have kept : lineFor inside (lossyChars line) = lossyChars line := if_neg turns
    rw [kept]
    refine ⟨autostart_of_off assigned (Bool.eq_false_of_not_eq_true turns), body,
      encode (trimEnd (lossyChars line)), _, whole, ?_, ?_, ?_⟩
    · rw [← List.flatMap_append, trimEnd_ending]
    · exact (lossyChars_encode _).symm
    · exact (lossyChars_encode _).symm

/-- The lines that are written keep what they should where the others are UTF-8, and only there. -/
theorem kept_turnedOff_iff (inside : Bool) (rows : List Bytes) :
    Kept inside rows ((turnedOff inside (rows.map lossyChars)).1.map encode) ↔
      Readable inside rows := by
  induction rows generalizing inside with
  | nil => exact Iff.rfl
  | cons line rest ih =>
    rw [List.map_cons, turnedOff_cons]
    apply and_congr _ (ih _)
    by_cases assigned : assigns inside (lossyChars line)
    · rw [if_pos assigned]
      constructor
      · intro _ other
        rw [assigned] at other
        cases other
      · intro _
        exact kept_assignment assigned
    · rw [if_neg assigned]
      rw [Bool.not_eq_true] at assigned
      have kept : lineFor inside (lossyChars line) = lossyChars line := by
        unfold lineFor
        rw [assigned]
        rfl
      rw [kept]
      constructor
      · intro same _
        exact ⟨String.ofList (lossyChars line), by rw [utf8_ofList]; exact same.symm⟩
      · intro readable
        have ⟨text, whole⟩ := readable assigned
        rw [← String.ofList_toList (s := text), utf8_ofList] at whole
        rw [whole, lossyChars_encode]

/-- A file is settled as expected if the login start is off already or the other lines are UTF-8,
and in no other case. -/
theorem settled_iff (raw : Bytes) :
    Settled raw (edited raw) ↔ startsWithLogin raw = false ∨ Readable false (linesOf raw) := by
  constructor
  · intro settled
    cases on : startsWithLogin raw with
    | false => exact .inl rfl
    | true =>
      have kept := settled.lines
      rw [linesOf_edited on, kept_turnedOff_iff] at kept
      exact .inr kept
  · intro condition
    refine ⟨?_, edited_off, startsWithLogin_edited raw, edited_edited raw, ?_⟩
    · cases on : startsWithLogin raw with
      | false =>
        rw [edited_off on]
        exact kept_self on
      | true =>
        rw [linesOf_edited on, kept_turnedOff_iff]
        rw [on] at condition
        exact condition.resolve_left (by decide)
    · intro sec key other
      exact iniValue_edited other

/-! ## The run -/

/-- These files are edited, and the others are as they were. -/
def EditedIn (before after : String → Option Bytes) (done : List String) : Prop :=
  ∀ path, if path ∈ done then ∃ raw, before path = some raw ∧ after path = some (edited raw)
    else after path = before path

theorem EditedIn.next {before after : String → Option Bytes} {done : List String} {path : String}
    {raw : Bytes} (kept : EditedIn before after done) (here : after path = some raw) :
    EditedIn before (Function.update after path (some (edited raw))) (done ++ [path]) := by
  intro other
  have old := kept other
  by_cases same : other = path
  · subst same
    rw [if_pos (List.mem_append_right _ (List.mem_singleton_self _)), Function.update_self]
    by_cases again : other ∈ done
    · rw [if_pos again] at old
      have ⟨first, was, now⟩ := old
      have read : raw = edited first := Option.some.inj (here.symm.trans now)
      exact ⟨first, was, by rw [read, edited_edited]⟩
    · rw [if_neg again] at old
      exact ⟨raw, old ▸ here, rfl⟩
  · rw [Function.update_of_ne same]
    by_cases there : other ∈ done
    · rw [if_pos there] at old
      rw [if_pos (List.mem_append_left _ there)]
      exact old
    · rw [if_neg there] at old
      rw [if_neg]
      · exact old
      · intro either
        rcases List.mem_append.mp either with early | last
        · exact there early
        · exact same (List.mem_singleton.mp last)

section

variable {faults : Nat → Fault} {files : String → Option Bytes}

theorem act_spec {α : Type} {m : M α} {P : (String → Option Bytes) → Prop}
    {Q : α → (String → Option Bytes) → Prop} {E : (String → Option Bytes) → Prop}
    (step : Triple (fun disk => P disk.files) m (fun a disk => Q a disk.files)
      fun _ disk => E disk.files)
    (before : ∀ files, P files → E files) (after : ∀ a files, Q a files → E files) :
    Triple (fun disk => P disk.files) (act faults m) (fun a disk => Q a disk.files)
      fun _ disk => E disk.files := by
  intro disk start
  have called : Triple (fun disk => P disk.files) (perform (faults disk.clock) Error.io m)
      (fun a disk => Q a disk.files) fun _ disk => E disk.files := by
    apply Triple.perform
    · exact fun _ => step
    · exact fun _ _ holds => ⟨before _ holds, before _ holds⟩
    · exact fun _ _ a _ done => ⟨after a _ done, after a _ done⟩
  exact called { disk with clock := disk.clock + 1 } start

theorem read_spec (path : String) : Triple (fun disk => disk.files = files) (read faults path)
    (fun raw disk => disk.files = files ∧ files path = some raw)
    fun _ disk => disk.files = files := by
  apply act_spec (P := fun now => now = files) (Q := fun raw now => now = files ∧ _ = some raw)
    (E := fun now => now = files)
  · apply Triple.get_bind
    rintro disk rfl
    cases here : disk.files path with
    | none => exact Triple.throw fun _ same => by rw [same]
    | some bytes =>
      apply Triple.bind (Q := fun _ now => now.files = disk.files)
      · apply Triple.check
        · exact fun _ _ same _ => by rw [same]
        · exact fun _ _ same _ => by rw [same]
      · exact fun _ now same => ⟨same, rfl⟩
  · exact fun _ same => same
  · exact fun _ _ done => done.1

theorem atomic_spec (path : String) (bytes : Bytes) :
    Triple (fun disk => disk.files = files) (atomic faults path bytes)
      (fun _ disk => disk.files = Function.update files path (some bytes)) fun _ disk =>
        disk.files = files ∨ disk.files = Function.update files path (some bytes) := by
  apply act_spec (P := fun now => now = files)
    (Q := fun _ now => now = Function.update files path (some bytes))
    (E := fun now => now = files ∨ now = Function.update files path (some bytes))
  · apply Triple.update
    rintro disk rfl
    rfl
  · exact fun _ same => .inl same
  · exact fun _ _ done => .inr done

theorem editFile_spec {before : String → Option Bytes} (path : String) (done : List String) :
    Triple (fun disk => EditedIn before disk.files done) (editFile faults path)
      (fun _ disk => EditedIn before disk.files (done ++ [path])) fun _ disk =>
        EditedIn before disk.files done ∨ EditedIn before disk.files (done ++ [path]) := by
  intro disk kept
  have first : Triple (fun now => now.files = disk.files) (read faults path)
      (fun raw now => now.files = disk.files ∧ disk.files path = some raw) fun _ now =>
        EditedIn before now.files done ∨ EditedIn before now.files (done ++ [path]) := by
    apply (read_spec path).mono (fun _ start => start) fun _ _ holds => holds
    exact fun _ now same => .inl (by rw [same]; exact kept)
  apply Triple.bind first _ disk rfl
  rintro raw now ⟨same, here⟩
  have next := kept.next here
  cases changed : withoutLoginStart (lossyChars raw) with
  | none =>
    have result : edited raw = raw := by
      unfold edited
      rw [changed]
    rw [result, ← here, Function.update_eq_self, ← same] at next
    exact next
  | some text =>
    have result : edited raw = utf8 (String.ofList text) := by
      unfold edited
      rw [changed]
    rw [result] at next
    apply (atomic_spec path (utf8 (String.ofList text)) now same).mono
    · exact fun _ _ written => by rw [written]; exact next
    · intro _ _ written
      rcases written with written | written
      · exact .inl (by rw [written]; exact kept)
      · exact .inr (by rw [written]; exact next)

/-- A run edits the files one after the other, and stops where something fails. -/
theorem simlinkWithoutLoginStart_spec (settings : Except Error (List String)) :
    Triple (fun disk => disk.files = files) (simlinkWithoutLoginStart faults settings)
      (fun _ disk => ∃ found, settings = .ok found ∧ EditedIn files disk.files found)
      fun _ disk => ∃ done, (∀ found, settings = .ok found → done <+: found) ∧
        EditedIn files disk.files done := by
  have start : EditedIn files files [] := fun _ => rfl
  apply Triple.bind (Q := fun found disk => settings = .ok found ∧ disk.files = files)
  · apply Triple.check
    · exact fun _ _ same found => ⟨found, same⟩
    · exact fun _ _ same _ => ⟨[], fun _ _ => List.nil_prefix, by rw [same]; exact start⟩
  · rintro found disk ⟨rfl, same⟩
    have begun : EditedIn files disk.files [] := by rw [same]; exact start
    have loop : Triple (fun disk => EditedIn files disk.files []) (found.forM (editFile faults))
        (fun _ disk => EditedIn files disk.files found) fun _ disk =>
          ∃ done, done <+: found ∧ EditedIn files disk.files done := by
      apply Triple.forM (I := fun done (disk : Disk) => EditedIn files disk.files done)
      intro done path rest split
      apply (editFile_spec path done).mono (fun _ holds => holds) fun _ _ holds => holds
      intro _ _ either
      rcases either with kept | next
      · exact ⟨done, by rw [split]; exact List.prefix_append _ _, kept⟩
      · exact ⟨done ++ [path], ⟨rest, by rw [split, List.append_assoc]; rfl⟩, next⟩
    apply (loop disk begun).mono
    · exact fun _ _ all => ⟨found, rfl, all⟩
    · intro _ _ ⟨done, early, kept⟩
      refine ⟨done, ?_, kept⟩
      rintro _ ⟨⟩
      exact early

end

theorem EditedIn.settled {before after : String → Option Bytes} {done : List String}
    (edit : EditedIn before after done) (path : String) :
    if path ∈ done then ∃ raw raw', before path = some raw ∧ after path = some raw' ∧
        (Settled raw raw' ↔ startsWithLogin raw = false ∨ Readable false (linesOf raw))
      else after path = before path := by
  have here := edit path
  by_cases there : path ∈ done
  · rw [if_pos there] at here ⊢
    have ⟨raw, was, now⟩ := here
    exact ⟨raw, edited raw, was, now, settled_iff raw⟩
  · rw [if_neg there] at here ⊢
    exact here

/-- After a run the settings files are as expected, wherever the lines that the run has no business
with are UTF-8 or the login start was off, and only there; other files are not touched.  A run that
breaks off has treated the first files so, and left the others. -/
theorem login_start_settled (faults : Nat → Fault) (settings : Except Error (List String))
    (disk : Disk) :
    Ends (simlinkWithoutLoginStart faults settings disk)
      (fun _ after => ∃ found, settings = .ok found ∧ ∀ path,
        if path ∈ found then ∃ raw raw', disk.files path = some raw ∧ after.files path = some raw' ∧
          (Settled raw raw' ↔ startsWithLogin raw = false ∨ Readable false (linesOf raw))
        else after.files path = disk.files path)
      fun _ after => ∃ done, (∀ found, settings = .ok found → done <+: found) ∧ ∀ path,
        if path ∈ done then ∃ raw raw', disk.files path = some raw ∧ after.files path = some raw' ∧
          (Settled raw raw' ↔ startsWithLogin raw = false ∨ Readable false (linesOf raw))
        else after.files path = disk.files path := by
  apply (simlinkWithoutLoginStart_spec settings disk rfl).mono
  · intro _ after ⟨found, given, edit⟩
    exact ⟨found, given, edit.settled⟩
  · intro _ after ⟨done, early, edit⟩
    exact ⟨done, early, edit.settled⟩

/-! ## A file in another encoding -/

/-- A section with the login start on, and a line in Latin-1 after it. -/
def latin : Bytes := utf8 "[simlink]\n" ++ (utf8 "autostart_app=1\n" ++ [0xE9])

theorem lossyChars_latin : lossyChars [0xE9] = ['\uFFFD'] := by
  rw [lossyChars, List.drop_nil, lossyChars]
  rfl

theorem linesOf_latin : linesOf latin =
    [encode "[simlink]\n".toList, encode "autostart_app=1\n".toList, [0xE9]] := by
  decide

theorem textOf_latin : (linesOf latin).map lossyChars =
    ["[simlink]\n".toList, "autostart_app=1\n".toList, ['\uFFFD']] := by
  rw [linesOf_latin, List.map_cons, List.map_cons, List.map_cons, lossyChars_encode,
    lossyChars_encode, lossyChars_latin]
  rfl

theorem latin_startsWithLogin : startsWithLogin latin = true := by
  unfold startsWithLogin
  rw [textOf_latin]
  decide

theorem latin_not_readable : ¬ Readable false (linesOf latin) := by
  rw [linesOf_latin]
  intro readable
  have ⟨_, _, last, _⟩ := readable
  rw [lossyChars_encode, lossyChars_encode, lossyChars_latin] at last
  have ⟨text, whole⟩ := last (by decide)
  rw [← String.ofList_toList (s := text), utf8_ofList] at whole
  have read := lossyChars_latin
  rw [whole, lossyChars_encode] at read
  rw [read] at whole
  exact absurd whole (by decide)

theorem read_latin : read (fun _ => .none) ".settings" ⟨fun _ => some latin, 0⟩ =
    .ok latin ⟨fun _ => some latin, 1⟩ := by
  have small : (decide (latin.length ≤ MAX_SETTINGS)) = true := by decide
  show ((liftM (require (decide (latin.length ≤ MAX_SETTINGS)) (Error.invalid INVALID)) >>=
    fun _ => pure latin) : M Bytes) _ = _
  rw [small]
  rfl

/-- The line that is not UTF-8 is another one after the run. -/
theorem foreign_bytes_lost : ∃ after raw',
    simlinkWithoutLoginStart (fun _ => .none) (.ok [".settings"]) ⟨fun _ => some latin, 0⟩ =
      .ok () after ∧ after.files ".settings" = some raw' ∧ ¬ Settled latin raw' := by
  have changed : withoutLoginStart (lossyChars latin) =
      some (turnedOff false ((linesOf latin).map lossyChars)).1.flatten := by
    have on := latin_startsWithLogin
    unfold startsWithLogin at on
    rw [← turnedOff_changed] at on
    unfold linesOf at on ⊢
    unfold withoutLoginStart
    rw [splitInclusive_lossyChars, on, if_pos rfl]
  have result : edited latin =
      utf8 (String.ofList (turnedOff false ((linesOf latin).map lossyChars)).1.flatten) := by
    unfold edited
    rw [changed]
  refine ⟨⟨Function.update (fun _ => some latin) ".settings" (some (edited latin)), 2⟩,
    edited latin, ?_, ?_, ?_⟩
  · have body : editFile (fun _ => .none) ".settings" ⟨fun _ => some latin, 0⟩ = .ok ()
        ⟨Function.update (fun _ => some latin) ".settings" (some (edited latin)), 2⟩ := by
      unfold editFile
      rw [run_bind read_latin, changed, result]
      rfl
    exact run_bind body
  · show Function.update (fun _ => some latin) ".settings" (some (edited latin)) ".settings" = _
    rw [Function.update_self]
  · rw [settled_iff, latin_startsWithLogin]
    intro condition
    exact latin_not_readable (condition.resolve_left (by decide))

end Flightdeck.Navigraph
