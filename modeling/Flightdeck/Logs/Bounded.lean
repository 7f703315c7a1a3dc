import Flightdeck.Logs.Reader

/-!
# Logs that do not grow without limit

`run_logs.rs`: while a game fills its log, the middle of it is given back to the file system.  The
start and the newest part stay, and no line that a scan delivers reaches across the hole.
-/

namespace Flightdeck.RunLogs

open Foundation LogReader

/-- How much of a growing log stays on disk. -/
structure Limit where
  head : Nat
  tail : Nat
  slack : Nat

def LIMIT : Limit where
  head := 16 * 1024 * 1024
  tail := 16 * 1024 * 1024
  slack := 16 * 1024 * 1024

def BLOCK := 4096

def nextMultipleOf (n block : Nat) : Nat := (n + block - 1) / block * block

structure Bounded where
  limit : Limit
  released : Nat
  supported : Bool

def Bounded.new (limit : Limit) : Bounded := { limit, released := 0, supported := true }

/-- What `enforce` meets: the length of the log, whether it can be told, and whether the file system
makes holes. -/
structure Moment where
  length : Nat
  told : Bool
  holes : Bool

/-- Where the next hole begins. -/
def Bounded.start (self : Bounded) : Nat :=
  nextMultipleOf (max self.released self.limit.head) BLOCK

/-- Where it ends. -/
def Bounded.stop (self : Bounded) (length : Nat) : Nat :=
  (length - self.limit.tail) / BLOCK * BLOCK

/-- `enforce`: the state after it, and where the hole begins and ends that it has made. -/
def Bounded.enforce (self : Bounded) (moment : Moment) : Bounded × Option (Nat × Nat) :=
  if !self.supported then (self, none)
  else if !moment.told then (self, none)
  else if moment.length ≤ self.limit.head + self.limit.tail + self.limit.slack then (self, none)
  else if self.stop moment.length ≤ self.start then (self, none)
  else if moment.holes then
    ({ self with released := self.stop moment.length }, some (self.start, self.stop moment.length))
  else ({ self with supported := false }, none)

/-- The state after some moments, and the holes with the length of the log at each. -/
def Bounded.run : Bounded → List Moment → Bounded × List (Nat × Nat × Nat)
  | self, [] => (self, [])
  | self, moment :: moments =>
    let (next, hole) := self.enforce moment
    let (last, holes) := next.run moments
    (last, hole.toList.map (fun (start, stop) => (moment.length, start, stop)) ++ holes)

/-- A log that is only appended to. -/
def Growing (moments : List Moment) : Prop := moments.Pairwise (·.length ≤ ·.length)

/-! ## Holes -/

/-- What has been given back begins after the start of the log, in whole blocks and one part after
the other; it is nothing, or longer than any line that is delivered. -/
structure Kept (bounded : Bounded) : Prop where
  limit : bounded.limit = LIMIT
  released : bounded.released = 0 ∨
    LIMIT.head + LogReader.LIMIT ≤ bounded.released ∧ bounded.released % BLOCK = 0

theorem head_eq : LIMIT.head = 16777216 := rfl
theorem tail_eq : LIMIT.tail = 16777216 := rfl
theorem slack_eq : LIMIT.slack = 16777216 := rfl
theorem line_eq : LogReader.LIMIT = 16384 := rfl

/-- A multiple is its own next one. -/
theorem nextMultipleOf_self {n : Nat} (multiple : n % BLOCK = 0) : nextMultipleOf n BLOCK = n := by
  unfold nextMultipleOf BLOCK at *
  omega

theorem kept_new : Kept (.new LIMIT) := ⟨rfl, .inl rfl⟩

theorem Kept.start {bounded : Bounded} (kept : Kept bounded) :
    bounded.start = max bounded.released LIMIT.head := by
  unfold Bounded.start
  rw [kept.limit]
  apply nextMultipleOf_self
  rcases kept.released with none | ⟨some, multiple⟩
  · rw [none, Nat.zero_max, head_eq]
    unfold BLOCK
    omega
  · rw [Nat.max_eq_left (by omega)]
    exact multiple

theorem Kept.stop {bounded : Bounded} (kept : Kept bounded) {length : Nat}
    (long : ¬ length ≤ bounded.limit.head + bounded.limit.tail + bounded.limit.slack) :
    LIMIT.head + LogReader.LIMIT ≤ bounded.stop length ∧ bounded.stop length % BLOCK = 0 ∧
      bounded.stop length + LIMIT.tail ≤ length := by
  unfold Bounded.stop
  rw [kept.limit] at long ⊢
  rw [head_eq, tail_eq, slack_eq] at long
  rw [head_eq, tail_eq, line_eq]
  unfold BLOCK
  omega

/-- One call: a hole begins where the last one has ended, or at the end of the start of the log. -/
theorem Kept.enforce {bounded : Bounded} (kept : Kept bounded) (moment : Moment) :
    Kept (bounded.enforce moment).1 ∧
      bounded.released ≤ (bounded.enforce moment).1.released ∧
      ∀ hole ∈ (bounded.enforce moment).2,
        hole.1 = max bounded.released LIMIT.head ∧ hole.1 < hole.2 ∧
        hole.2 = (bounded.enforce moment).1.released ∧ hole.2 + LIMIT.tail ≤ moment.length := by
  have start := kept.start
  unfold Bounded.enforce
  split
  · exact ⟨kept, Nat.le_refl _, nofun⟩
  · split
    · exact ⟨kept, Nat.le_refl _, nofun⟩
    · split
      · exact ⟨kept, Nat.le_refl _, nofun⟩
      · rename_i long
        have ⟨beyond, multiple, room⟩ := kept.stop long
        split
        · exact ⟨kept, Nat.le_refl _, nofun⟩
        · rename_i further
          split
          · refine ⟨⟨kept.limit, .inr ⟨beyond, multiple⟩⟩, ?_, ?_⟩
            · show bounded.released ≤ bounded.stop moment.length
              omega
            · intro hole made
              rw [← Option.some.inj made]
              exact ⟨start, Nat.lt_of_not_le further, rfl, room⟩
          · exact ⟨⟨kept.limit, kept.released⟩, Nat.le_refl _, nofun⟩

/-- All calls: by induction on the moments. -/
theorem Kept.run {bounded : Bounded} (kept : Kept bounded) (moments : List Moment) :
    Kept (bounded.run moments).1 ∧
      bounded.released ≤ (bounded.run moments).1.released ∧
      ∀ hole ∈ (bounded.run moments).2,
        LIMIT.head ≤ hole.2.1 ∧ hole.2.1 < hole.2.2 ∧
        hole.2.2 ≤ (bounded.run moments).1.released ∧
        ∃ moment ∈ moments, moment.length = hole.1 ∧ hole.2.2 + LIMIT.tail ≤ hole.1 := by
  induction moments generalizing bounded with
  | nil => exact ⟨kept, Nat.le_refl _, nofun⟩
  | cons moment moments ih =>
    have ⟨next, grown, made⟩ := kept.enforce moment
    have ⟨last, grown', rest⟩ := ih next
    refine ⟨last, Nat.le_trans grown grown', fun hole there => ?_⟩
    rcases List.mem_append.mp there with there | there
    · obtain ⟨made', told, rfl⟩ := List.mem_map.mp there
      have ⟨first, filled, stop, room⟩ := made made' (Option.mem_toList.mp told)
      refine ⟨?_, filled, stop ▸ grown', moment, List.mem_cons_self .., rfl, room⟩
      show LIMIT.head ≤ made'.1
      omega
    · have ⟨first, filled, stop, other, inside, same, room⟩ := rest hole there
      exact ⟨first, filled, stop, other, List.mem_cons_of_mem _ inside, same, room⟩

/-- Everything that was given back, as one hole. -/
def hole (bounded : Bounded) : Option (Nat × Nat) :=
  if bounded.released = 0 then none else some (LIMIT.head, bounded.released)

/-- The line has bytes before a hole and behind it. -/
def Spans (line : Line) (hole : Nat × Nat) : Prop :=
  line.start < hole.1 ∧ hole.2 < line.start + line.text.length

theorem not_spans {bounded : Bounded} (kept : Kept bounded) {file : Bytes} {ranges : Ranges}
    {line : Line} (there : line ∈ delivered file ranges) :
    ∀ gap ∈ hole bounded, ¬ Spans line gap := by
  intro gap made spans
  have short : line.text.length ≤ LogReader.LIMIT := by
    have := (List.mem_filter.mp there).2
    simp only [Bool.and_eq_true, decide_eq_true_eq] at this
    exact this.2
  unfold hole at made
  split at made
  · exact absurd made nofun
  · cases made
    have ⟨before, behind⟩ := spans
    have long := (kept.released.resolve_left ‹_›).1
    simp only at before behind
    omega

/-- A scan delivers exactly the lines that it promises, whatever the blocks and the deadline; a log
whose middle is given back keeps its start and its newest part, and no line reaches across. -/
theorem logs_bounded :
    (∀ file maximum tail reads,
      let ranges := rangesOf file maximum tail reads
      let (texts, coverage) := scanBounded file maximum tail reads
      (∀ line ∈ fileLines file, (file.drop line.start).take line.text.length = line.text) ∧
      ranges.first ≤ min file.length maximum ∧
      ranges.second = max ranges.first (file.length - tail) ∧
      (texts.flatMap fun text => (lossy text).toList) =
        ((delivered file ranges).flatMap fun line => (lossy line.text).toList ++ ['\n']) ∧
      coverage.oversized_lines =
        ((fileLines file).filter fun line => LogReader.LIMIT < ranges.met line).length ∧
      (coverage.complete = true → delivered file ranges = fileLines file)) ∧
    ∀ moments, Growing moments →
      (∀ hole ∈ ((Bounded.new LIMIT).run moments).2, LIMIT.head ≤ hole.2.1 ∧
        ∀ last, moments.getLast? = some last → hole.2.2 + LIMIT.tail ≤ last.length) ∧
      ∀ file maximum tail reads, ∀ line ∈ delivered file (rangesOf file maximum tail reads),
        ∀ gap ∈ hole ((Bounded.new LIMIT).run moments).1, ¬ Spans line gap := by
  constructor
  · intro file maximum tail reads
    have ⟨_, bound⟩ := scanned_head file maximum reads
    exact ⟨fun _ => fileLines_place, bound, rfl, scan_exact file maximum tail reads⟩
  · intro moments growing
    have ⟨kept, _, holes⟩ := kept_new.run moments
    refine ⟨fun hole there => ?_, fun file maximum tail reads line there =>
      not_spans kept there⟩
    have ⟨first, _, _, moment, inside, same, room⟩ := holes hole there
    refine ⟨first, fun last final => ?_⟩
    have order : moment.length ≤ last.length := by
      obtain ⟨before, rfl⟩ := List.getLast?_eq_some_iff.mp final
      rcases List.mem_append.mp inside with earlier | now
      · exact (List.pairwise_append.mp growing).2.2 moment earlier last (List.mem_singleton.mpr rfl)
      · rw [List.mem_singleton.mp now]
    omega

/-- A log that has grown twice beyond its limit. -/
def grown : List Moment :=
  [{ length := 60000000, told := true, holes := true },
    { length := 70000000, told := true, holes := true }]

theorem logs_bounded_grown :
    ((Bounded.new LIMIT).run grown).2 =
        [(60000000, 16777216, 43220992), (70000000, 43220992, 53219328)] ∧
      ∀ hole ∈ ((Bounded.new LIMIT).run grown).2,
        ∀ last, grown.getLast? = some last → hole.2.2 + LIMIT.tail ≤ last.length := by
  have growing : Growing grown := by
    simp [Growing, grown]
  exact ⟨by decide +kernel, fun hole there => ((logs_bounded.2 grown growing).1 hole there).2⟩

end Flightdeck.RunLogs
