import Flightdeck.Foundation.Lossy

/-!
# Bounded log scans

`log_reader.rs`: the start of a log is read within a time limit and its end always.  A consumer sees
whole lines, never two that a skipped part has joined.
-/

namespace Flightdeck.LogReader

open Foundation

/-- A longer line is left out. -/
def LIMIT := 16 * 1024

structure Lines where
  pending : Bytes
  discarding : Bool
  oversized : Nat

/-- One part of `feed`, with the lines so far. -/
def Lines.part (state : Lines × Bytes) (part : Bytes) : Lines × Bytes :=
  let (self, lines) := state
  if self.discarding then ({ self with discarding := false }, lines)
  else if LIMIT < part.length then ({ self with oversized := self.oversized + 1 }, lines)
  else (self, lines ++ part ++ [NEWLINE])

/-- The line that has not ended has become too long. -/
def Lines.overflow (self : Lines) : Lines :=
  if LIMIT < self.pending.length then
    { pending := [], discarding := true,
      oversized := if self.discarding then self.oversized else self.oversized + 1 }
  else self

/-- `feed`: what is kept, and the text for the consumer, if there is any. -/
def Lines.feed (self : Lines) (bytes : Bytes) (final : Bool) : Lines × Option Bytes :=
  let data := self.pending ++ bytes
  if data = [] then ({ self with pending := [] }, none)
  else
    let (parts, last) := cutLines NEWLINE data
    let (self, lines) :=
      if final then (parts ++ [last]).foldl Lines.part ({ self with pending := [] }, [])
      else parts.foldl Lines.part ({ self with pending := last }, [])
    (self.overflow, if lines = [] then none else some lines)

/-! ## `scan_bounded` -/

def BLOCK := 256 * 1024

/-- What a run meets: how many bytes each read returns, at which block the deadline has passed, and
whether the file has changed meanwhile. -/
structure Reads where
  size : Nat → Nat
  deadline : Nat
  changed : Bool

/-- A scan under way: `count` blocks have been read. -/
structure Scan where
  position : Nat
  read : Nat
  count : Nat
  lines : Lines
  texts : List Bytes

/-- One block; a read returns at least a byte while there are any. -/
def Scan.block (file : Bytes) (reads : Reads) (stop : Nat) (self : Scan) : Scan :=
  let length := min (stop - self.position) BLOCK
  let n := max 1 (min (reads.size self.count) length)
  let (lines, text) := self.lines.feed ((file.drop self.position).take n) false
  { position := self.position + n, read := self.read + n, count := self.count + 1, lines
    texts := self.texts ++ text.toList }

/-- The two loops: blocks up to a position, unless the deadline passes. -/
def Scan.blocks (file : Bytes) (reads : Reads) (deadline : Option Nat) (stop : Nat) (self : Scan) :
    Scan :=
  if self.position < stop ∧ deadline.all (self.count < ·) then
    (self.block file reads stop).blocks file reads deadline stop
  else self
termination_by stop - self.position
decreasing_by simp only [Scan.block]; omega

/-- The coverage that is reported. -/
structure Coverage where
  bytes_total : Nat
  bytes_read : Nat
  omitted_bytes : Nat
  oversized_lines : Nat
  changed_during_read : Bool
  complete : Bool

def start : Scan where
  position := 0
  read := 0
  count := 0
  lines := { pending := [], discarding := false, oversized := 0 }
  texts := []

/-- The scan after the first loop. -/
def Scan.head (file : Bytes) (maximum : Nat) (reads : Reads) : Scan :=
  start.blocks file reads (some reads.deadline) (min file.length maximum)

/-- Where the second loop begins. -/
def Scan.offset (self : Scan) (file : Bytes) (tail : Nat) : Nat :=
  max self.position (file.length - tail)

/-- The scan after the second loop. -/
def Scan.tail (file : Bytes) (tail : Nat) (reads : Reads) (self : Scan) : Scan :=
  if self.position < file.length then
    let lines := if self.position < self.offset file tail then
      { self.lines with pending := [], discarding := true } else self.lines
    { self with lines, position := self.offset file tail }.blocks file reads none file.length
  else self

/-- `scan_bounded`: the texts for the consumer, and the coverage. -/
def scanBounded (file : Bytes) (maximum tail : Nat) (reads : Reads) : List Bytes × Coverage :=
  let scanned := (Scan.head file maximum reads).tail file tail reads
  let (lines, text) := scanned.lines.feed [] true
  (scanned.texts ++ text.toList,
    { bytes_total := file.length, bytes_read := scanned.read
      omitted_bytes := file.length - scanned.read, oversized_lines := lines.oversized
      changed_during_read := reads.changed
      complete := scanned.read == file.length && lines.oversized == 0 && !reads.changed })

/-! ## The lines of a file -/

/-- A line, where it begins, and whether a line break ends it. -/
structure Line where
  start : Nat
  text : Bytes
  ended : Bool

/-- The position after the line. -/
def Line.stop (line : Line) : Nat := line.start + line.text.length + if line.ended then 1 else 0

def number : Nat → List Bytes → List Line
  | _, [] => []
  | start, text :: texts =>
    { start, text, ended := true } :: number (start + text.length + 1) texts

/-- How much of the file lines take. -/
def extent (texts : List Bytes) : Nat := (texts.map (·.length + 1)).sum

def fileLines (file : Bytes) : List Line :=
  let (texts, last) := cutLines NEWLINE file
  number 0 texts ++
    if last = [] then [] else [{ start := extent texts, text := last, ended := false }]

/-- What is read: all of the file, or its start up to `first` and its end from `second` on, without
the first piece of a line there. -/
structure Ranges where
  first : Nat
  second : Nat

/-- The line lies completely in what is read. -/
def Ranges.contains (ranges : Ranges) (line : Line) : Bool :=
  ranges.second ≤ ranges.first || line.stop ≤ ranges.first || ranges.second < line.start

/-- How much of a line is read, from its start on. -/
def Ranges.met (ranges : Ranges) (line : Line) : Nat :=
  if ranges.second ≤ ranges.first || ranges.second < line.start then line.text.length
  else min (line.start + line.text.length) ranges.first - line.start

/-- The ranges of a scan. -/
def rangesOf (file : Bytes) (maximum tail : Nat) (reads : Reads) : Ranges where
  first := (Scan.head file maximum reads).position
  second := (Scan.head file maximum reads).offset file tail

/-- The lines that are delivered. -/
def delivered (file : Bytes) (ranges : Ranges) : List Line :=
  (fileLines file).filter fun line => ranges.contains line && line.text.length ≤ LIMIT

/-! ## What has been fed -/

/-- All lines of some data, also the one that has not ended. -/
def allLines (data : Bytes) : List Bytes :=
  let (ended, rest) := cutLines NEWLINE data
  ended ++ if rest = [] then [] else [rest]

/-- The lines that count, without the first piece where something has been skipped. -/
def counted (skip : Bool) (texts : List Bytes) : List Bytes := if skip then texts.tail else texts

def longOnes (texts : List Bytes) : List Bytes := texts.filter (LIMIT < ·.length)

/-- The text of the lines that are short enough. -/
def whole (texts : List Bytes) : Bytes :=
  ((texts.filter (·.length ≤ LIMIT)).map (· ++ [NEWLINE])).flatten

theorem whole_append (a b : List Bytes) : whole (a ++ b) = whole a ++ whole b := by
  simp [whole]

theorem longOnes_append (a b : List Bytes) : longOnes (a ++ b) = longOnes a ++ longOnes b := by
  simp [longOnes]

theorem whole_long {text : Bytes} (long : LIMIT < text.length) : whole [text] = [] := by
  have : ¬ text.length ≤ LIMIT := by omega
  simp [whole, this]

theorem whole_short {text : Bytes} (short : text.length ≤ LIMIT) :
    whole [text] = text ++ [NEWLINE] := by
  simp [whole, short]

theorem longOnes_long {text : Bytes} (long : LIMIT < text.length) : longOnes [text] = [text] := by
  simp [longOnes, long]

theorem longOnes_short {text : Bytes} (short : text.length ≤ LIMIT) : longOnes [text] = [] := by
  have : ¬ LIMIT < text.length := by omega
  simp [longOnes, this]

theorem counted_append {skip : Bool} {texts : List Bytes} (begun : ¬ (skip = true ∧ texts = []))
    (more : List Bytes) : counted skip (texts ++ more) = counted skip texts ++ more := by
  cases skip with
  | false => rfl
  | true =>
    have nonempty : texts ≠ [] := fun empty => begun ⟨rfl, empty⟩
    exact List.tail_append_of_ne_nil nonempty

/-- A line is dropped while a part is passed over, and otherwise delivered unless it is too long. -/
theorem foldl_part (parts : List Bytes) (lines : Lines) (text : Bytes) :
    parts.foldl Lines.part (lines, text) =
      ({ lines with
          discarding := lines.discarding && parts.isEmpty
          oversized := lines.oversized + (longOnes (counted lines.discarding parts)).length },
        text ++ whole (counted lines.discarding parts)) := by
  induction parts generalizing lines text with
  | nil =>
    cases lines with
    | mk _ discarding _ => cases discarding <;> simp [counted, longOnes, whole]
  | cons part parts ih =>
    rw [List.foldl_cons]
    cases passing : lines.discarding with
    | true =>
      have step : Lines.part (lines, text) part = ({ lines with discarding := false }, text) :=
        if_pos passing
      rw [step, ih]
      simp [counted]
    | false =>
      have kept : ¬ lines.discarding = true := by simp [passing]
      have split : part :: parts = [part] ++ parts := rfl
      by_cases long : LIMIT < part.length
      · have step : Lines.part (lines, text) part =
            ({ lines with oversized := lines.oversized + 1 }, text) := by
          show (if lines.discarding = true then _ else if LIMIT < part.length then _ else _) = _
          rw [if_neg kept, if_pos long]
        rw [step, ih]
        simp only [passing, counted, Bool.false_and, Bool.false_eq_true, if_false]
        rw [split, longOnes_append, whole_append, longOnes_long long, whole_long long]
        simp only [List.length_append, List.length_singleton, List.nil_append]
        rw [Nat.add_assoc]
      · have step : Lines.part (lines, text) part = (lines, text ++ part ++ [NEWLINE]) := by
          show (if lines.discarding = true then _ else if LIMIT < part.length then _ else _) = _
          rw [if_neg kept, if_neg long]
        rw [step, ih]
        simp only [passing, counted, Bool.false_and, Bool.false_eq_true, if_false]
        rw [split, longOnes_append, whole_append, longOnes_short (by omega),
          whole_short (by omega)]
        simp

/-- What `feed` keeps once it has been given some data; `skip` if it began with a part that is
passed over, and `base` lines had been too long before. -/
structure Fed (skip : Bool) (base : Nat) (data : Bytes) (lines : Lines) (text : Bytes) : Prop where
  bounded : lines.pending.length ≤ LIMIT
  unbroken : NEWLINE ∉ lines.pending
  pending : lines.discarding = false → lines.pending = (cutLines NEWLINE data).2
  discarding : lines.discarding = true ↔
    (skip = true ∧ (cutLines NEWLINE data).1 = []) ∨ LIMIT < (cutLines NEWLINE data).2.length
  oversized : lines.oversized = base + (longOnes (counted skip (cutLines NEWLINE data).1)).length +
    if (skip = true ∧ (cutLines NEWLINE data).1 = []) ∨ (cutLines NEWLINE data).2.length ≤ LIMIT
      then 0 else 1
  text : text = whole (counted skip (cutLines NEWLINE data).1)

theorem toList_flatten (text : Bytes) :
    (if text = [] then none else some text : Option Bytes).toList.flatten = text := by
  by_cases empty : text = []
  · simp [empty]
  · simp [empty]

/-- `feed` without its shortcut for no data. -/
theorem feed_eq (lines : Lines) (bytes : Bytes) :
    (lines.feed bytes false).1 = Lines.overflow
      { pending := (cutLines NEWLINE (lines.pending ++ bytes)).2
        discarding := lines.discarding && (cutLines NEWLINE (lines.pending ++ bytes)).1.isEmpty
        oversized := lines.oversized + (longOnes (counted lines.discarding
          (cutLines NEWLINE (lines.pending ++ bytes)).1)).length } ∧
    (lines.feed bytes false).2.toList.flatten =
      whole (counted lines.discarding (cutLines NEWLINE (lines.pending ++ bytes)).1) := by
  by_cases empty : lines.pending ++ bytes = []
  · have fed : lines.feed bytes false = ({ lines with pending := [] }, none) := if_pos empty
    have nothing : counted lines.discarding ([] : List Bytes) = [] := by
      cases lines.discarding <;> rfl
    rw [fed, empty, cutLines_nil, nothing]
    constructor
    · simp [Lines.overflow, longOnes]
    · rfl
  · have fed : lines.feed bytes false =
        let (self, text) := (cutLines NEWLINE (lines.pending ++ bytes)).1.foldl Lines.part
          ({ lines with pending := (cutLines NEWLINE (lines.pending ++ bytes)).2 }, [])
        (self.overflow, if text = [] then none else some text) := if_neg empty
    rw [fed, foldl_part]
    constructor
    · rfl
    · exact toList_flatten _

/-- The line that has not ended is given up once it is too long. -/
theorem overflow_eq (lines : Lines) : lines.overflow =
    if LIMIT < lines.pending.length then
      { pending := [], discarding := true,
        oversized := lines.oversized + if lines.discarding then 0 else 1 }
    else lines := by
  unfold Lines.overflow
  cases lines.discarding <;> rfl

/-- More data, in whatever blocks it comes.  The cases are whether a line ends in the block, and
whether the line before it is passed over. -/
theorem Fed.feed {skip : Bool} {base : Nat} {data : Bytes} {lines : Lines} {text : Bytes}
    (fed : Fed skip base data lines text) (bytes : Bytes) :
    Fed skip base (data ++ bytes) (lines.feed bytes false).1
      (text ++ (lines.feed bytes false).2.toList.flatten) := by
  obtain ⟨kept, told⟩ := feed_eq lines bytes
  have clean := (notMem_cutLines NEWLINE bytes).2
  have before : cutLines NEWLINE (lines.pending ++ bytes) =
      joinLines ([], lines.pending) (cutLines NEWLINE bytes) := by
    rw [cutLines_append, cutLines_of_notMem NEWLINE fed.unbroken]
  have after := cutLines_append NEWLINE data bytes
  rw [kept, told, before]
  have pending := fed.pending
  have discarding := fed.discarding
  have oversized := fed.oversized
  have told := fed.text
  have bounded := fed.bounded
  have unbroken := fed.unbroken
  rcases same : cutLines NEWLINE data with ⟨ended, rest⟩
  rw [same] at after pending discarding oversized told
  simp only at pending discarding oversized told
  rcases cut : cutLines NEWLINE bytes with ⟨_ | ⟨line, more⟩, last⟩
  · -- the block ends no line: it only grows the last one
    rw [cut] at after clean
    simp only [joinLines] at after ⊢
    have nothing : counted lines.discarding ([] : List Bytes) = [] := by
      cases lines.discarding <;> rfl
    have clean : NEWLINE ∉ lines.pending ++ last := by
      simp [unbroken, clean]
    rw [nothing, overflow_eq]
    cases passing : lines.discarding with
    -- a line that is discarded stays so until it ends
    | true =>
      have gone := discarding.mp passing
      have still : (skip = true ∧ ended = []) ∨ LIMIT < (rest ++ last).length := by
        rcases gone with gone | long
        · exact .inl gone
        · right
          rw [List.length_append]
          omega
      have count : (if (skip = true ∧ ended = []) ∨ (rest ++ last).length ≤ LIMIT then 0 else 1) =
          if (skip = true ∧ ended = []) ∨ rest.length ≤ LIMIT then 0 else 1 := by
        rcases gone with gone | long
        · simp [gone]
        · have h1 : ¬ rest.length ≤ LIMIT := by omega
          have h2 : ¬ (rest ++ last).length ≤ LIMIT := by
            rw [List.length_append]
            omega
          simp only [h1, h2]
      split
      · constructor
        · exact Nat.zero_le _
        · exact List.not_mem_nil
        · intro wrong
          cases wrong
        · rw [after]
          exact iff_of_true rfl still
        · rw [after, count, ← oversized]
          rfl
        · rw [after, told]
          simp [whole]
      · rename_i short
        constructor
        · exact Nat.le_of_not_lt short
        · exact clean
        · intro wrong
          cases wrong
        · rw [after]
          exact iff_of_true rfl still
        · rw [after, count, ← oversized]
          rfl
        · rw [after, told]
          simp [whole]
    -- a line that is kept may grow too long with this block
    | false =>
      have same' := pending passing
      have going : ¬ ((skip = true ∧ ended = []) ∨ LIMIT < rest.length) := by
        rw [← discarding, passing]
        exact Bool.false_ne_true
      have begun : ¬ (skip = true ∧ ended = []) := fun gone => going (.inl gone)
      have short : rest.length ≤ LIMIT := Nat.le_of_not_lt fun long => going (.inr long)
      rw [if_pos (.inr short)] at oversized
      split
      · rename_i long
        simp only [same'] at long
        constructor
        · exact Nat.zero_le _
        · exact List.not_mem_nil
        · intro wrong
          cases wrong
        · rw [after]
          exact iff_of_true rfl (.inr long)
        · have : ¬ ((skip = true ∧ ended = []) ∨ (rest ++ last).length ≤ LIMIT) := by
            rintro (gone | small)
            · exact begun gone
            · omega
          rw [after, if_neg this, oversized]
          rfl
        · rw [after, told]
          simp [whole]
      · rename_i small
        simp only [same'] at small
        constructor
        · rw [same']
          exact Nat.le_of_not_lt small
        · exact clean
        · intro _
          rw [after, same']
        · rw [after]
          apply iff_of_false Bool.false_ne_true
          rintro (gone | long)
          · exact begun gone
          · exact small long
        · rw [after, if_pos (.inr (Nat.le_of_not_lt small)), oversized]
          rfl
        · rw [after, told]
          simp [whole]
  · -- the block ends the pending line, and whole lines may follow
    rw [cut] at after clean
    simp only [joinLines, List.nil_append] at after ⊢
    have begun : ¬ (skip = true ∧ ended ++ (rest ++ line) :: more = []) := by simp
    -- the lines that count, and how many of them are too long, after this block
    have lead : whole (counted lines.discarding ((lines.pending ++ line) :: more)) =
          whole (counted (skip && ended.isEmpty) ((rest ++ line) :: more)) ∧
        lines.oversized + (longOnes (counted lines.discarding
          ((lines.pending ++ line) :: more))).length =
        base + (longOnes (counted skip ended)).length +
          (longOnes (counted (skip && ended.isEmpty) ((rest ++ line) :: more))).length := by
      cases passing : lines.discarding with
      | true =>
        by_cases gone : skip = true ∧ ended = []
        · rw [if_pos (.inl gone)] at oversized
          simp [counted, gone.1, gone.2, oversized]
        · have long : LIMIT < rest.length := (discarding.mp passing).resolve_left gone
          have longer : LIMIT < (rest ++ line).length := by
            rw [List.length_append]
            omega
          have none : ¬ ((skip = true ∧ ended = []) ∨ rest.length ≤ LIMIT) := by
            rintro (h | h)
            · exact gone h
            · omega
          have counts : (skip && ended.isEmpty) = false := by
            rw [Bool.eq_false_iff]
            simpa using gone
          have split : (rest ++ line) :: more = [rest ++ line] ++ more := rfl
          rw [if_neg none] at oversized
          rw [counts]
          simp only [counted, if_true, Bool.false_eq_true, if_false, List.tail_cons]
          rw [split, whole_append, longOnes_append, whole_long longer, longOnes_long longer]
          simp only [List.nil_append, List.length_append, List.length_singleton, true_and]
          rw [oversized]
          simp only [counted]
          omega
      | false =>
        have going : ¬ ((skip = true ∧ ended = []) ∨ LIMIT < rest.length) := by
          rw [← discarding, passing]
          exact Bool.false_ne_true
        have counts : (skip && ended.isEmpty) = false := by
          rw [Bool.eq_false_iff]
          intro gone
          exact going (.inl (by simpa using gone))
        have short : rest.length ≤ LIMIT := Nat.le_of_not_lt fun long => going (.inr long)
        rw [if_pos (.inr short)] at oversized
        rw [counts, pending passing]
        exact ⟨rfl, by rw [oversized]; rfl⟩
    -- what counts of the data is what counted before and what the block ended
    have spread : counted skip (ended ++ (rest ++ line) :: more) =
        counted skip ended ++ counted (skip && ended.isEmpty) ((rest ++ line) :: more) := by
      by_cases gone : skip = true ∧ ended = []
      · simp [counted, gone.1, gone.2]
      · rw [counted_append gone]
        have counts : (skip && ended.isEmpty) = false := by
          rw [Bool.eq_false_iff]
          simpa using gone
        rw [counts]
        rfl
    rw [lead.1, lead.2, overflow_eq]
    simp only [List.isEmpty_cons, Bool.and_false]
    split
    · rename_i long
      constructor
      · exact Nat.zero_le _
      · exact List.not_mem_nil
      · intro wrong
        cases wrong
      · rw [after]
        exact iff_of_true rfl (.inr long)
      · have : ¬ ((skip = true ∧ ended ++ (rest ++ line) :: more = []) ∨ last.length ≤ LIMIT) := by
          rintro (h | h)
          · exact begun h
          · omega
        rw [after, if_neg this, spread, longOnes_append, List.length_append]
        simp only [Bool.false_eq_true, if_false]
        omega
      · rw [after, spread, whole_append, told]
    · rename_i short
      constructor
      · exact Nat.le_of_not_lt short
      · exact clean
      · intro _
        rw [after]
      · rw [after]
        apply iff_of_false Bool.false_ne_true
        rintro (gone | long)
        · exact begun gone
        · exact short long
      · rw [after, if_pos (.inr (Nat.le_of_not_lt short)), spread, longOnes_append,
          List.length_append]
        simp only
        omega
      · rw [after, spread, whole_append, told]

theorem fed_start (base : Nat) :
    Fed false base [] { pending := [], discarding := false, oversized := base } [] where
  bounded := Nat.zero_le _
  unbroken := List.not_mem_nil
  pending _ := rfl
  discarding := by simp
  oversized := rfl
  text := rfl

theorem fed_skip (base : Nat) :
    Fed true base [] { pending := [], discarding := true, oversized := base } [] where
  bounded := Nat.zero_le _
  unbroken := List.not_mem_nil
  pending := nofun
  discarding := by simp
  oversized := rfl
  text := rfl

/-- The end of the data ends its last line. -/
theorem Fed.finish {skip : Bool} {base : Nat} {data : Bytes} {lines : Lines} {text : Bytes}
    (fed : Fed skip base data lines text) :
    text ++ (lines.feed [] true).2.toList.flatten = whole (counted skip (allLines data)) ∧
    (lines.feed [] true).1.oversized = base + (longOnes (counted skip (allLines data))).length := by
  have pending := fed.pending
  have discarding := fed.discarding
  have oversized := fed.oversized
  have told := fed.text
  have alone := cutLines_of_notMem NEWLINE fed.unbroken
  rcases same : cutLines NEWLINE data with ⟨ended, rest⟩
  rw [same] at pending discarding oversized told
  simp only at pending discarding oversized told
  have all : allLines data = ended ++ if rest = [] then [] else [rest] := by
    rw [allLines, same]
  rw [all]
  by_cases empty : lines.pending = []
  · have fed : lines.feed [] true = ({ lines with pending := [] }, none) :=
      if_pos (by rw [empty]; rfl)
    rw [fed]
    simp only [Option.toList_none, List.flatten_nil, List.append_nil]
    by_cases gone : skip = true ∧ ended = []
    · rw [if_pos (.inl gone)] at oversized
      rw [told, oversized, gone.1, gone.2]
      by_cases nothing : rest = []
      · simp [counted, nothing]
      · simp [counted, nothing]
    · rw [counted_append gone, whole_append, longOnes_append, told, oversized]
      by_cases long : LIMIT < rest.length
      · have nothing : rest ≠ [] := by
          rintro rfl
          exact absurd long (Nat.not_lt_zero _)
        have none : ¬ ((skip = true ∧ ended = []) ∨ rest.length ≤ LIMIT) := by
          rintro (h | h)
          · exact gone h
          · omega
        rw [if_neg nothing, if_neg none, whole_long long, longOnes_long long]
        simp [Nat.add_assoc]
      · have going : ¬ lines.discarding = true := by
          rw [discarding]
          rintro (h | h)
          · exact gone h
          · exact long h
        have nothing : rest = [] := by
          rw [← pending (Bool.eq_false_iff.mpr going)]
          exact empty
        rw [if_pos nothing, if_pos (.inr (Nat.le_of_not_lt long))]
        simp [whole, longOnes]
  · have data : lines.pending ++ [] ≠ [] := by simpa using empty
    have fed' : lines.feed [] true =
        let (self, text) := ((cutLines NEWLINE (lines.pending ++ [])).1 ++
          [(cutLines NEWLINE (lines.pending ++ [])).2]).foldl Lines.part
            ({ lines with pending := [] }, [])
        (self.overflow, if text = [] then none else some text) := if_neg data
    rw [List.append_nil, alone] at fed'
    have settled (oversized : Nat) (discarding : Bool) :
        Lines.overflow { pending := [], discarding, oversized } =
          { pending := [], discarding, oversized } := if_neg (Nat.not_lt_zero _)
    rw [fed', List.nil_append, foldl_part]
    simp only [toList_flatten, List.nil_append, settled]
    cases passing : lines.discarding with
    | true =>
      simp only [counted, if_true, List.tail_cons]
      rcases discarding.mp passing with gone | long
      · rw [if_pos (.inl gone)] at oversized
        rw [told, oversized, gone.1, gone.2]
        by_cases nothing : rest = []
        · simp [counted, nothing, whole, longOnes]
        · simp [counted, nothing, whole, longOnes]
      · have nothing : rest ≠ [] := by
          rintro rfl
          exact absurd long (Nat.not_lt_zero _)
        by_cases gone : skip = true ∧ ended = []
        · rw [if_pos (.inl gone)] at oversized
          rw [told, oversized, gone.1, gone.2]
          simp [counted, nothing, whole, longOnes]
        · have none : ¬ ((skip = true ∧ ended = []) ∨ rest.length ≤ LIMIT) := by
            rintro (h | h)
            · exact gone h
            · omega
          rw [if_neg none] at oversized
          have spread := counted_append gone (if rest = [] then [] else [rest])
          rw [show (if skip = true then (ended ++ if rest = [] then [] else [rest]).tail
            else ended ++ if rest = [] then [] else [rest]) =
            counted skip (ended ++ if rest = [] then [] else [rest]) from rfl, spread,
            whole_append, longOnes_append, told, oversized, if_neg nothing, whole_long long,
            longOnes_long long]
          simp [whole, longOnes, Nat.add_assoc]
    | false =>
      have same' := pending passing
      have going : ¬ ((skip = true ∧ ended = []) ∨ LIMIT < rest.length) := by
        rw [← discarding, passing]
        exact Bool.false_ne_true
      have begun : ¬ (skip = true ∧ ended = []) := fun gone => going (.inl gone)
      have short : rest.length ≤ LIMIT := Nat.le_of_not_lt fun long => going (.inr long)
      rw [if_pos (.inr short)] at oversized
      have nothing : rest ≠ [] := same' ▸ empty
      rw [counted_append begun, whole_append, longOnes_append, told, oversized, if_neg nothing,
        same', show counted false [rest] = [rest] from rfl, longOnes_short short]
      simp

/-! ## The two loops -/

/-- A scan that has read the file from a position on without a gap. -/
structure Scanned (file : Bytes) (skip : Bool) (base origin read : Nat) (before : Bytes)
    (scan : Scan) : Prop where
  begun : origin ≤ scan.position
  inside : scan.position ≤ file.length
  read : scan.read + origin = read + scan.position
  fed : ∃ text, scan.texts.flatten = before ++ text ∧
    Fed skip base ((file.drop origin).take (scan.position - origin)) scan.lines text

section scan

variable {file before : Bytes} {skip : Bool} {base origin read stop : Nat} {scan : Scan}

theorem Scanned.block (reads : Reads) (scanned : Scanned file skip base origin read before scan)
    (more : scan.position < stop) (within : stop ≤ file.length) :
    Scanned file skip base origin read before (scan.block file reads stop) ∧
      scan.position < (scan.block file reads stop).position ∧
      (scan.block file reads stop).position ≤ stop := by
  have ⟨text, told, fed⟩ := scanned.fed
  have begun := scanned.begun
  have count := scanned.read
  obtain ⟨n, chosen⟩ : ∃ n, n = max 1 (min (reads.size scan.count)
    (min (stop - scan.position) BLOCK)) := ⟨_, rfl⟩
  have position : (scan.block file reads stop).position = scan.position + n := by
    rw [chosen]
    rfl
  have least : 1 ≤ n := by omega
  have most : n ≤ stop - scan.position := by omega
  have piece : (file.drop origin).take (scan.position - origin) ++
      (file.drop scan.position).take n = (file.drop origin).take (scan.position + n - origin) := by
    have length : scan.position + n - origin = scan.position - origin + n := by omega
    have skipped : (file.drop origin).drop (scan.position - origin) = file.drop scan.position := by
      rw [List.drop_drop]
      congr 1
      omega
    rw [length, List.take_add, skipped]
  have next := fed.feed ((file.drop scan.position).take n)
  rw [piece] at next
  refine ⟨⟨by omega, by omega, ?_, ?_⟩, by omega, by omega⟩
  · show scan.read + max 1 (min _ _) + origin = _
    rw [position, ← chosen]
    omega
  · have lines : (scan.block file reads stop).lines =
        (scan.lines.feed ((file.drop scan.position).take n) false).1 := by
      rw [chosen]
      rfl
    have texts : (scan.block file reads stop).texts = scan.texts ++
        (scan.lines.feed ((file.drop scan.position).take n) false).2.toList := by
      rw [chosen]
      rfl
    rw [position, lines, texts]
    exact ⟨_, by rw [List.flatten_append, told, List.append_assoc], next⟩

/-- The loop: by induction on what is left to read. -/
theorem Scanned.blocks (reads : Reads) (deadline : Option Nat)
    (scanned : Scanned file skip base origin read before scan) (within : stop ≤ file.length) :
    Scanned file skip base origin read before (scan.blocks file reads deadline stop) ∧
      (scan.blocks file reads deadline stop).position ≤ max scan.position stop ∧
      (deadline = none → stop ≤ (scan.blocks file reads deadline stop).position) := by
  fun_induction Scan.blocks file reads deadline stop scan with
  | case1 scan more ih =>
    have ⟨next, further, bounded⟩ := scanned.block reads more.1 within
    have ⟨done, most, all⟩ := ih next
    exact ⟨done, by omega, all⟩
  | case2 scan past =>
    refine ⟨scanned, by omega, fun never => ?_⟩
    rw [never] at past
    simpa using past

end scan

/-! ## Positions -/

theorem number_append (start : Nat) (a b : List Bytes) :
    number start (a ++ b) = number start a ++ number (start + extent a) b := by
  induction a generalizing start with
  | nil => rfl
  | cons text a ih =>
    show _ :: number _ (a ++ b) = _
    rw [ih]
    simp only [number, extent, List.map_cons, List.sum_cons, List.cons_append]
    congr 3
    omega

theorem number_text (start : Nat) (texts : List Bytes) :
    (number start texts).map Line.text = texts := by
  induction texts generalizing start with
  | nil => rfl
  | cons text texts ih => rw [number, List.map_cons, ih]

theorem mem_number {start : Nat} {texts : List Bytes} {line : Line}
    (there : line ∈ number start texts) :
    start ≤ line.start ∧ line.ended = true ∧ line.stop ≤ start + extent texts := by
  induction texts generalizing start with
  | nil => exact absurd there List.not_mem_nil
  | cons text texts ih =>
    have length : extent (text :: texts) = text.length + 1 + extent texts := rfl
    rw [number] at there
    rcases List.mem_cons.mp there with same | there
    · rw [same, length]
      refine ⟨Nat.le_refl _, rfl, ?_⟩
      show start + text.length + 1 ≤ _
      omega
    · have ⟨after, ended, bound⟩ := ih there
      exact ⟨by omega, ended, by omega⟩

theorem length_eq (data : Bytes) :
    data.length = extent (cutLines NEWLINE data).1 + (cutLines NEWLINE data).2.length := by
  conv_lhs => rw [← flatten_cutLines NEWLINE data]
  rw [List.length_append, List.length_flatten]
  simp [extent, Function.comp_def]

/-- The lines of the file by where they end and begin: those of the first part, the one that crosses
into the second, and what follows. -/
theorem fileLines_append (a b : Bytes) : ∃ crossing later,
    fileLines (a ++ b) = number 0 (cutLines NEWLINE a).1 ++ (crossing ++ later) ∧
    (∀ line ∈ number 0 (cutLines NEWLINE a).1, line.start < line.stop ∧ line.stop ≤ a.length ∧
      line.start + line.text.length ≤ a.length) ∧
    (∀ line ∈ crossing, line.start = extent (cutLines NEWLINE a).1 ∧
      a.length ≤ line.start + line.text.length) ∧
    (b ≠ [] → crossing.length = 1 ∧ ∀ line ∈ crossing, a.length < line.stop) ∧
    (∀ line ∈ later, a.length < line.start) ∧
    later.map Line.text = (allLines b).tail := by
  have length := length_eq a
  have joined := cutLines_append NEWLINE a b
  have firsts : ∀ line ∈ number 0 (cutLines NEWLINE a).1, line.start < line.stop ∧
      line.stop ≤ a.length ∧ line.start + line.text.length ≤ a.length := by
    intro line there
    obtain ⟨_, ended, bound⟩ := mem_number there
    have stop : line.stop = line.start + line.text.length + 1 := by rw [Line.stop, if_pos ended]
    omega
  have back := flatten_cutLines NEWLINE b
  rcases cutA : cutLines NEWLINE a with ⟨ended, rest⟩
  rw [cutA] at length joined firsts
  simp only at length firsts
  rcases cutB : cutLines NEWLINE b with ⟨_ | ⟨first, more⟩, last⟩
  · rw [cutB] at joined back
    simp only [joinLines] at joined
    have whole : last = b := by simpa using back
    refine ⟨if rest ++ last = [] then [] else
      [{ start := extent ended, text := rest ++ last, ended := false }], [], ?_, firsts, ?_, ?_,
      fun _ there => absurd there List.not_mem_nil, ?_⟩
    · rw [fileLines, joined, List.append_nil]
    · intro line there
      split at there
      · exact absurd there List.not_mem_nil
      · rw [List.mem_singleton.mp there]
        refine ⟨rfl, ?_⟩
        show _ ≤ extent ended + (rest ++ last).length
        rw [List.length_append]
        omega
    · intro filled
      have nonempty : last ≠ [] := whole ▸ filled
      have both : rest ++ last ≠ [] := by simp [nonempty]
      have positive := List.length_pos_of_ne_nil nonempty
      rw [if_neg both]
      refine ⟨rfl, fun line there => ?_⟩
      rw [List.mem_singleton.mp there]
      show _ < extent ended + (rest ++ last).length + 0
      rw [List.length_append]
      omega
    · rw [allLines, cutB]
      by_cases empty : last = []
      · simp [empty]
      · simp [empty]
  · rw [cutB] at joined
    simp only [joinLines] at joined
    have total : extent (ended ++ (rest ++ first) :: more) =
        a.length + first.length + 1 + extent more := by
      simp only [extent, List.map_append, List.map_cons, List.sum_append, List.sum_cons,
        List.length_append] at length ⊢
      omega
    have place : 0 + extent ended + (rest ++ first).length + 1 = a.length + first.length + 1 := by
      rw [List.length_append]
      omega
    refine ⟨[{ start := extent ended, text := rest ++ first, ended := true }],
      number (a.length + first.length + 1) more ++ if last = [] then [] else
        [{ start := a.length + first.length + 1 + extent more, text := last, ended := false }],
      ?_, firsts, ?_, ?_, ?_, ?_⟩
    · rw [fileLines, joined]
      simp only
      rw [number_append, total, number, place, Nat.zero_add]
      simp
    · intro line there
      rw [List.mem_singleton.mp there]
      refine ⟨rfl, ?_⟩
      show _ ≤ extent ended + (rest ++ first).length
      rw [List.length_append]
      omega
    · intro _
      refine ⟨rfl, fun line there => ?_⟩
      rw [List.mem_singleton.mp there]
      show _ < extent ended + (rest ++ first).length + 1
      rw [List.length_append]
      omega
    · intro line there
      rcases List.mem_append.mp there with there | there
      · have := (mem_number there).1
        omega
      · split at there
        · exact absurd there List.not_mem_nil
        · rw [List.mem_singleton.mp there]
          show _ < a.length + first.length + 1 + extent more
          omega
    · rw [List.map_append, number_text, allLines, cutB]
      by_cases empty : last = []
      · simp [empty]
      · simp [empty]

theorem fileLines_text (file : Bytes) : (fileLines file).map Line.text = allLines file := by
  rcases cut : cutLines NEWLINE file with ⟨ended, rest⟩
  rw [fileLines, allLines, cut]
  simp only [List.map_append, number_text]
  split
  · rfl
  · rfl

theorem number_place (texts : List Bytes) (last before : Bytes) :
    ∀ line ∈ number before.length texts, ∃ a b,
      before ++ ((texts.map (· ++ [NEWLINE])).flatten ++ last) = a ++ (line.text ++ b) ∧
        a.length = line.start := by
  induction texts generalizing before with
  | nil => nofun
  | cons text texts ih =>
    intro line there
    rcases List.mem_cons.mp there with rfl | there
    · exact ⟨before, NEWLINE :: ((texts.map (· ++ [NEWLINE])).flatten ++ last), by simp, rfl⟩
    · have shifted : before.length + text.length + 1 =
          (before ++ (text ++ [NEWLINE])).length := by
        simp
        omega
      rw [shifted] at there
      have ⟨a, b, same, start⟩ := ih (before ++ (text ++ [NEWLINE])) line there
      refine ⟨a, b, ?_, start⟩
      rw [← same]
      simp

/-- A line stands in the file where it says. -/
theorem fileLines_place {file : Bytes} {line : Line} (there : line ∈ fileLines file) :
    (file.drop line.start).take line.text.length = line.text := by
  have ⟨a, b, same, start⟩ : ∃ a b, file = a ++ (line.text ++ b) ∧ a.length = line.start := by
    have back := flatten_cutLines NEWLINE file
    rcases cut : cutLines NEWLINE file with ⟨ended, rest⟩
    rw [fileLines, cut] at there
    rw [cut] at back
    simp only at there back
    rcases List.mem_append.mp there with there | there
    · have ⟨a, b, same, start⟩ := number_place ended rest [] line there
      exact ⟨a, b, by rw [← same, List.nil_append, back], start⟩
    · split at there
      · exact absurd there List.not_mem_nil
      · rw [List.mem_singleton.mp there]
        refine ⟨(ended.map (· ++ [NEWLINE])).flatten, [], by rw [List.append_nil, back], ?_⟩
        simp [extent, List.length_flatten, Function.comp_def]
  rw [same, ← start, List.drop_left, List.take_left]

/-! ## A skipped part -/

section skipped

variable {file : Bytes} {ranges : Ranges}

/-- With a part left out, what is read are the lines that end before it and those that begin after
the first piece behind it. -/
theorem contained_skipped (gap : ranges.first < ranges.second)
    (within : ranges.second ≤ file.length) :
    ((fileLines file).filter ranges.contains).map Line.text =
        (cutLines NEWLINE (file.take ranges.first)).1 ++
          (allLines (file.drop ranges.second)).tail ∧
      ((fileLines file).filter fun line => LIMIT < ranges.met line).length =
        (longOnes (cutLines NEWLINE (file.take ranges.first)).1).length +
        (if (cutLines NEWLINE (file.take ranges.first)).2.length ≤ LIMIT then 0 else 1) +
        (longOnes (allLines (file.drop ranges.second)).tail).length := by
  obtain ⟨crossing, later, shape, firsts, crosses, reaches, lates, _⟩ :=
    fileLines_append (file.take ranges.first) (file.drop ranges.first)
  obtain ⟨crossing', later', shape', firsts', crosses', _, lates', texts'⟩ :=
    fileLines_append (file.take ranges.second) (file.drop ranges.second)
  rw [List.take_append_drop] at shape shape'
  have first : (file.take ranges.first).length = ranges.first := by
    rw [List.length_take]
    omega
  have second : (file.take ranges.second).length = ranges.second := by
    rw [List.length_take]
    omega
  have extents := length_eq (file.take ranges.first)
  have extents' := length_eq (file.take ranges.second)
  rw [first] at firsts crosses reaches lates extents
  rw [second] at firsts' crosses' lates' extents'
  have filled : file.drop ranges.first ≠ [] := by
    apply List.ne_nil_of_length_pos
    rw [List.length_drop]
    omega
  have ⟨one, beyond⟩ := reaches filled
  have apart : (ranges.second ≤ ranges.first : Bool) = false := by simpa using gap
  -- the lines behind the skipped part
  have behind : (fileLines file).filter (ranges.second < ·.start) = later' := by
    have none : (number 0 (cutLines NEWLINE (file.take ranges.second)).1).filter
        (ranges.second < ·.start) = [] := by
      rw [List.filter_eq_nil_iff]
      intro line there
      have := firsts' line there
      simp only [decide_eq_true_eq]
      omega
    have none' : crossing'.filter (ranges.second < ·.start) = [] := by
      rw [List.filter_eq_nil_iff]
      intro line there
      have := crosses' line there
      simp only [decide_eq_true_eq]
      omega
    have all : later'.filter (ranges.second < ·.start) = later' := by
      rw [List.filter_eq_self]
      intro line there
      simpa using lates' line there
    rw [shape', List.filter_append, List.filter_append, none, none', all, List.nil_append,
      List.nil_append]
  have early : ∀ line ∈ number 0 (cutLines NEWLINE (file.take ranges.first)).1,
      (ranges.second < line.start : Bool) = false := by
    intro line there
    have := firsts line there
    simp only [decide_eq_false_iff_not]
    omega
  have crossing_early : ∀ line ∈ crossing, (ranges.second < line.start : Bool) = false := by
    intro line there
    have := crosses line there
    simp only [decide_eq_false_iff_not]
    omega
  have behind_later : later.filter (ranges.second < ·.start) = later' := by
    have none : (number 0 (cutLines NEWLINE (file.take ranges.first)).1).filter
        (ranges.second < ·.start) = [] := by
      rw [List.filter_eq_nil_iff]
      intro line there
      rw [early line there]
      exact Bool.false_ne_true
    have none' : crossing.filter (ranges.second < ·.start) = [] := by
      rw [List.filter_eq_nil_iff]
      intro line there
      rw [crossing_early line there]
      exact Bool.false_ne_true
    rw [← behind, shape, List.filter_append, List.filter_append, none, none', List.nil_append,
      List.nil_append]
  constructor
  · have all : (number 0 (cutLines NEWLINE (file.take ranges.first)).1).filter ranges.contains =
        number 0 (cutLines NEWLINE (file.take ranges.first)).1 := by
      rw [List.filter_eq_self]
      intro line there
      have := firsts line there
      simp only [Ranges.contains, Bool.or_eq_true, decide_eq_true_eq]
      omega
    have none : crossing.filter ranges.contains = [] := by
      rw [List.filter_eq_nil_iff]
      intro line there
      have h1 := crosses line there
      have h2 := beyond line there
      simp only [Ranges.contains, Bool.or_eq_true, decide_eq_true_eq]
      omega
    have some : later.filter ranges.contains = later.filter (ranges.second < ·.start) := by
      apply List.filter_congr
      intro line there
      have late := lates line there
      have stop : line.start ≤ line.stop := by
        unfold Line.stop
        omega
      have past : (line.stop ≤ ranges.first : Bool) = false := by
        simp only [decide_eq_false_iff_not]
        omega
      rw [Ranges.contains, apart, past]
      rfl
    rw [shape, List.filter_append, List.filter_append, all, none, some, behind_later,
      List.nil_append, List.map_append, number_text, texts']
  · have full : ((number 0 (cutLines NEWLINE (file.take ranges.first)).1).filter fun line =>
        LIMIT < ranges.met line).length =
        (longOnes (cutLines NEWLINE (file.take ranges.first)).1).length := by
      have same : (number 0 (cutLines NEWLINE (file.take ranges.first)).1).filter
          (fun line => LIMIT < ranges.met line) =
          (number 0 (cutLines NEWLINE (file.take ranges.first)).1).filter
            ((fun text => decide (LIMIT < text.length)) ∘ Line.text) := by
        apply List.filter_congr
        intro line there
        have met : ranges.met line = line.text.length := by
          have := firsts line there
          rw [Ranges.met, apart, early line there]
          simp only [Bool.or_self, Bool.false_eq_true, if_false]
          omega
        rw [met]
        rfl
      rw [same, ← List.length_map (f := Line.text), ← List.filter_map, number_text]
      rfl
    have cut : (crossing.filter fun line => LIMIT < ranges.met line).length =
        if (cutLines NEWLINE (file.take ranges.first)).2.length ≤ LIMIT then 0 else 1 := by
      obtain ⟨line, same⟩ := List.length_eq_one_iff.mp one
      rw [same] at crosses crossing_early ⊢
      have there : line ∈ [line] := List.mem_singleton.mpr rfl
      have ⟨start, stop⟩ := crosses line there
      have met : ranges.met line = (cutLines NEWLINE (file.take ranges.first)).2.length := by
        rw [Ranges.met, apart, crossing_early line there]
        simp only [Bool.or_self, Bool.false_eq_true, if_false]
        omega
      rw [List.filter_singleton, met]
      by_cases short : (cutLines NEWLINE (file.take ranges.first)).2.length ≤ LIMIT
      · rw [decide_eq_false (Nat.not_lt.mpr short), if_pos short]
        rfl
      · rw [decide_eq_true (Nat.lt_of_not_le short), if_neg short]
        rfl
    have rest : (later.filter fun line => LIMIT < ranges.met line).length =
        (longOnes (allLines (file.drop ranges.second)).tail).length := by
      have same : later.filter (fun line => LIMIT < ranges.met line) =
          (later.filter (ranges.second < ·.start)).filter
            ((fun text => decide (LIMIT < text.length)) ∘ Line.text) := by
        rw [List.filter_filter]
        apply List.filter_congr
        intro line there
        have late := lates line there
        by_cases after : ranges.second < line.start
        · simp [Ranges.met, after]
        · have met : ranges.met line = 0 := by
            have : (ranges.second < line.start : Bool) = false := by simpa using after
            rw [Ranges.met, apart, this]
            simp only [Bool.or_self, Bool.false_eq_true, if_false]
            omega
          simp [met, after]
      rw [same, behind_later, ← texts', ← List.length_map (f := Line.text), ← List.filter_map]
      rfl
    rw [shape, List.filter_append, List.filter_append, List.length_append, List.length_append,
      full, cut, rest]
    omega

end skipped

/-! ## The scan -/

/-- What is delivered, as bytes. -/
theorem delivered_eq (file : Bytes) (ranges : Ranges) :
    ((delivered file ranges).map fun line => line.text ++ [NEWLINE]).flatten =
      whole (((fileLines file).filter ranges.contains).map Line.text) := by
  have swap : delivered file ranges = ((fileLines file).filter ranges.contains).filter
      ((fun text => decide (text.length ≤ LIMIT)) ∘ Line.text) := by
    rw [List.filter_filter]
    apply List.filter_congr
    intro line _
    exact Bool.and_comm ..
  rw [whole, List.filter_map, List.map_map, swap]
  rfl

theorem scanned_start (file : Bytes) : Scanned file false 0 0 0 [] start where
  begun := Nat.le_refl _
  inside := Nat.zero_le _
  read := rfl
  fed := ⟨[], rfl, fed_start 0⟩

section scanBounded

variable (file : Bytes) (maximum tail : Nat) (reads : Reads)

/-- The first loop. -/
theorem scanned_head :
    Scanned file false 0 0 0 [] (Scan.head file maximum reads) ∧
      (Scan.head file maximum reads).position ≤ min file.length maximum := by
  have ⟨scanned, most, _⟩ := (scanned_start file).blocks reads (some reads.deadline)
    (Nat.min_le_left file.length maximum)
  refine ⟨scanned, ?_⟩
  have : start.position = 0 := rfl
  unfold Scan.head
  omega

theorem scanBounded_texts : (scanBounded file maximum tail reads).1 =
    ((Scan.head file maximum reads).tail file tail reads).texts ++
      (((Scan.head file maximum reads).tail file tail reads).lines.feed [] true).2.toList := rfl

/-- What the two loops have fed and read, if nothing is left out. -/
theorem scan_whole (joined : (rangesOf file maximum tail reads).second ≤
    (rangesOf file maximum tail reads).first) :
    (scanBounded file maximum tail reads).1.flatten = whole (allLines file) ∧
      (scanBounded file maximum tail reads).2.oversized_lines =
        (longOnes (allLines file)).length := by
  have ⟨scanned, bound⟩ := scanned_head file maximum reads
  obtain ⟨head, same⟩ : ∃ head, head = Scan.head file maximum reads := ⟨_, rfl⟩
  have joined : head.offset file tail ≤ head.position := by
    rw [same]
    exact joined
  rw [← same] at scanned bound
  have done : Scanned file false 0 0 0 [] (head.tail file tail reads) ∧
      (head.tail file tail reads).position = file.length := by
    unfold Scan.tail
    by_cases more : head.position < file.length
    · have offset : head.offset file tail = head.position := by
        have : head.position ≤ head.offset file tail := Nat.le_max_left ..
        omega
      rw [if_pos more, if_neg (by omega), offset]
      have ⟨next, most, all⟩ := scanned.blocks reads none (Nat.le_refl _)
      have whole := all rfl
      show Scanned file false 0 0 0 [] (head.blocks file reads none file.length) ∧
        (head.blocks file reads none file.length).position = file.length
      exact ⟨next, by omega⟩
    · rw [if_neg more]
      have := scanned.inside
      exact ⟨scanned, by omega⟩
  obtain ⟨⟨_, _, _, text, told, fed⟩, position⟩ := done
  rw [position, Nat.sub_zero, List.drop_zero, List.take_length] at fed
  have ⟨ended, count⟩ := fed.finish
  constructor
  · rw [scanBounded_texts, ← same, List.flatten_append, told, List.nil_append]
    exact ended
  · show (Lines.feed _ [] true).1.oversized = _
    rw [← same, count]
    exact Nat.zero_add _

/-- What the two loops have fed and read, if a part is left out. -/
theorem scan_skipped (gap : (rangesOf file maximum tail reads).first <
    (rangesOf file maximum tail reads).second) :
    (scanBounded file maximum tail reads).1.flatten =
        whole ((cutLines NEWLINE (file.take (rangesOf file maximum tail reads).first)).1 ++
          (allLines (file.drop (rangesOf file maximum tail reads).second)).tail) ∧
      (scanBounded file maximum tail reads).2.oversized_lines =
        (longOnes (cutLines NEWLINE (file.take (rangesOf file maximum tail reads).first)).1).length +
        (if (cutLines NEWLINE (file.take (rangesOf file maximum tail reads).first)).2.length ≤ LIMIT
          then 0 else 1) +
        (longOnes (allLines (file.drop (rangesOf file maximum tail reads).second)).tail).length ∧
      (scanBounded file maximum tail reads).2.bytes_read < file.length := by
  have ⟨⟨_, inside, read, text, told, fed⟩, _⟩ := scanned_head file maximum reads
  obtain ⟨head, same⟩ : ∃ head, head = Scan.head file maximum reads := ⟨_, rfl⟩
  have firstSame : (rangesOf file maximum tail reads).first = head.position := by
    rw [same]
    rfl
  have secondSame : (rangesOf file maximum tail reads).second = head.offset file tail := by
    rw [same]
    rfl
  rw [← same] at inside read told fed
  rw [firstSame, secondSame] at gap ⊢
  have most : head.offset file tail ≤ file.length := by
    unfold Scan.offset
    omega
  have more : head.position < file.length := by omega
  -- the second loop begins with nothing pending and passes over the first piece
  let second : Scan := { head with
    lines := { head.lines with pending := [], discarding := true }
    position := head.offset file tail }
  have begun : Scanned file true head.lines.oversized (head.offset file tail) head.read
      head.texts.flatten second := by
    refine ⟨Nat.le_refl _, most, rfl, [], (List.append_nil _).symm, ?_⟩
    have nothing : (file.drop (head.offset file tail)).take
        (second.position - head.offset file tail) = [] := by
      show List.take (head.offset file tail - head.offset file tail) _ = []
      rw [Nat.sub_self, List.take_zero]
    rw [nothing]
    exact fed_skip _
  have ⟨⟨_, _, count, text', told', fed'⟩, bound, all⟩ := begun.blocks reads none (Nat.le_refl _)
  have done := all rfl
  have shape : head.tail file tail reads = second.blocks file reads none file.length := by
    unfold Scan.tail
    rw [if_pos more, if_pos gap]
  have position : (second.blocks file reads none file.length).position = file.length := by
    have : second.position = head.offset file tail := rfl
    omega
  have rest : (file.drop (head.offset file tail)).take
      (file.length - head.offset file tail) = file.drop (head.offset file tail) := by
    apply List.take_of_length_le
    rw [List.length_drop]
  rw [position, rest] at fed'
  rw [Nat.sub_zero, List.drop_zero] at fed
  have ⟨ended, counted'⟩ := fed'.finish
  have oversized := fed.oversized
  have first := fed.text
  simp only [counted, Bool.false_eq_true, if_false, false_and, false_or, Nat.zero_add] at oversized
  simp only [counted, Bool.false_eq_true, if_false] at first
  simp only [counted, if_true] at ended counted'
  refine ⟨?_, ?_, ?_⟩
  · rw [scanBounded_texts, ← same, shape, List.flatten_append, told', told, List.nil_append,
      List.append_assoc, ended, whole_append, first]
  · show (Lines.feed _ [] true).1.oversized = _
    rw [← same, shape, counted', oversized]
  · show (Scan.tail file tail reads (Scan.head file maximum reads)).read < _
    rw [← same, shape]
    omega

end scanBounded

/-! ## The text -/

/-- Whole lines. -/
def OfLines (text : Bytes) : Prop :=
  ∃ lines : List Bytes, text = (lines.map (· ++ [NEWLINE])).flatten

theorem feed_ofLines {lines : Lines} {bytes text : Bytes} {final : Bool}
    (told : text ∈ (lines.feed bytes final).2.toList) : OfLines text := by
  by_cases empty : lines.pending ++ bytes = []
  · have fed : lines.feed bytes final = ({ lines with pending := [] }, none) := if_pos empty
    rw [fed] at told
    exact absurd told List.not_mem_nil
  · have fed : (lines.feed bytes final).2 =
        let text := (if final then ((cutLines NEWLINE (lines.pending ++ bytes)).1 ++
            [(cutLines NEWLINE (lines.pending ++ bytes)).2]).foldl Lines.part
              ({ lines with pending := [] }, [])
          else (cutLines NEWLINE (lines.pending ++ bytes)).1.foldl Lines.part
            ({ lines with pending := (cutLines NEWLINE (lines.pending ++ bytes)).2 }, [])).2
        if text = [] then none else some text := by
      unfold Lines.feed
      rw [if_neg empty]
    rw [fed] at told
    cases final with
    | true =>
      simp only [if_true, foldl_part] at told
      split at told
      · exact absurd told List.not_mem_nil
      · rw [Option.mem_toList] at told
        exact ⟨_, (Option.some.inj told).symm⟩
    | false =>
      simp only [Bool.false_eq_true, if_false, foldl_part] at told
      split at told
      · exact absurd told List.not_mem_nil
      · rw [Option.mem_toList] at told
        exact ⟨_, (Option.some.inj told).symm⟩

theorem block_texts (file : Bytes) (reads : Reads) (stop : Nat) (scan : Scan) :
    (scan.block file reads stop).texts = scan.texts ++
      (scan.lines.feed ((file.drop scan.position).take (max 1 (min (reads.size scan.count)
        (min (stop - scan.position) BLOCK)))) false).2.toList := rfl

theorem blocks_ofLines {file : Bytes} {reads : Reads} {deadline : Option Nat} {stop : Nat}
    {scan : Scan} (ofLines : ∀ text ∈ scan.texts, OfLines text) :
    ∀ text ∈ (scan.blocks file reads deadline stop).texts, OfLines text := by
  fun_induction Scan.blocks file reads deadline stop scan with
  | case1 scan more ih =>
    apply ih
    intro text there
    rw [block_texts] at there
    rcases List.mem_append.mp there with there | told
    · exact ofLines text there
    · exact feed_ofLines told
  | case2 scan past => exact ofLines

theorem scanBounded_ofLines (file : Bytes) (maximum tail : Nat) (reads : Reads) :
    ∀ text ∈ (scanBounded file maximum tail reads).1, OfLines text := by
  have head : ∀ text ∈ (Scan.head file maximum reads).texts, OfLines text :=
    blocks_ofLines nofun
  have all : ∀ text ∈ ((Scan.head file maximum reads).tail file tail reads).texts,
      OfLines text := by
    unfold Scan.tail
    split
    · exact blocks_ofLines head
    · exact head
  intro text there
  rw [scanBounded_texts] at there
  rcases List.mem_append.mp there with there | told
  · exact all text there
  · exact feed_ofLines told

/-- Texts of whole lines are converted as if they were one. -/
theorem lossyChars_flatten {texts : List Bytes} (ofLines : ∀ text ∈ texts, OfLines text) :
    texts.flatMap lossyChars = lossyChars texts.flatten := by
  induction texts with
  | nil => rw [List.flatMap_nil, List.flatten_nil, lossyChars]
  | cons text texts ih =>
    obtain ⟨lines, same⟩ := ofLines text (List.mem_cons_self ..)
    have rest := ih fun other there => ofLines other (List.mem_cons_of_mem _ there)
    have alone := lossyChars_lines lines []
    rw [List.append_nil, lossyChars, List.append_nil] at alone
    rw [List.flatMap_cons, List.flatten_cons, same, lossyChars_lines, alone, rest]

/-! ## What a scan delivers -/

/-- Exactly the lines that are delivered reach the consumer, each once, in the order of the file and
with a line break; the longer lines are counted; a complete scan delivers every line. -/
theorem scan_exact (file : Bytes) (maximum tail : Nat) (reads : Reads) :
    ((scanBounded file maximum tail reads).1.flatMap fun text => (lossy text).toList) =
        ((delivered file (rangesOf file maximum tail reads)).flatMap fun line =>
          (lossy line.text).toList ++ ['\n']) ∧
      (scanBounded file maximum tail reads).2.oversized_lines =
        ((fileLines file).filter fun line =>
          LIMIT < (rangesOf file maximum tail reads).met line).length ∧
      ((scanBounded file maximum tail reads).2.complete = true →
        delivered file (rangesOf file maximum tail reads) = fileLines file) := by
  obtain ⟨ranges, same⟩ : ∃ ranges, ranges = rangesOf file maximum tail reads := ⟨_, rfl⟩
  have ofLines := scanBounded_ofLines file maximum tail reads
  have text (flat : (scanBounded file maximum tail reads).1.flatten =
      whole (((fileLines file).filter ranges.contains).map Line.text)) :
      ((scanBounded file maximum tail reads).1.flatMap fun text => (lossy text).toList) =
        (delivered file ranges).flatMap fun line => (lossy line.text).toList ++ ['\n'] := by
    simp only [lossy, String.toList_ofList]
    rw [lossyChars_flatten ofLines, flat, ← delivered_eq]
    have split := lossyChars_lines ((delivered file ranges).map Line.text) []
    rw [List.append_nil, lossyChars, List.append_nil, List.map_map, List.flatMap_map] at split
    exact split
  rw [← same]
  by_cases gap : ranges.first < ranges.second
  · have gap' := gap
    rw [same] at gap'
    obtain ⟨flat, count, partial'⟩ := scan_skipped file maximum tail reads gap'
    have within : ranges.second ≤ file.length := by
      obtain ⟨scanned, _⟩ := scanned_head file maximum reads
      have inside := scanned.inside
      rw [same]
      show max (Scan.head file maximum reads).position (file.length - tail) ≤ _
      omega
    obtain ⟨lines, met⟩ := contained_skipped gap within
    rw [← same] at flat count
    refine ⟨text (by rw [flat, lines]), by rw [count, met], fun complete => ?_⟩
    have read : (scanBounded file maximum tail reads).2.bytes_read = file.length := by
      have := complete
      simp only [scanBounded, Bool.and_eq_true, beq_iff_eq] at this
      exact this.1.1
    omega
  · have joined : ranges.second ≤ ranges.first := Nat.le_of_not_lt gap
    have joined' := joined
    rw [same] at joined'
    obtain ⟨flat, count⟩ := scan_whole file maximum tail reads joined'
    have every : (fileLines file).filter ranges.contains = fileLines file := by
      rw [List.filter_eq_self]
      intro line _
      simp [Ranges.contains, joined]
    have met : ((fileLines file).filter fun line => LIMIT < ranges.met line).length =
        (longOnes (allLines file)).length := by
      have lengths : (fileLines file).filter (fun line => LIMIT < ranges.met line) =
          (fileLines file).filter ((fun text => decide (LIMIT < text.length)) ∘ Line.text) := by
        apply List.filter_congr
        intro line _
        simp [Ranges.met, joined]
      rw [lengths, ← fileLines_text, longOnes, List.filter_map, List.length_map]
    refine ⟨text (by rw [flat, every, fileLines_text]), by rw [count, met], fun complete => ?_⟩
    have none : ((fileLines file).filter fun line => LIMIT < ranges.met line).length = 0 := by
      rw [met, ← count]
      have := complete
      simp only [scanBounded, Bool.and_eq_true, beq_iff_eq] at this
      exact this.1.2
    rw [delivered, List.filter_eq_self]
    intro line there
    have short := List.filter_eq_nil_iff.mp (List.eq_nil_of_length_eq_zero none) line there
    simp only [Ranges.met, joined, decide_true, Bool.true_or, if_true, decide_eq_true_eq] at short
    simp [Ranges.contains, joined, Nat.le_of_not_lt short]

end Flightdeck.LogReader
