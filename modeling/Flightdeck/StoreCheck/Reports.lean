import Flightdeck.Foundation.Lines
import Flightdeck.StoreCheck.Rows

/-!
# What a helper says

The reports of a helper process, line by line, and the rows that they leave.
-/

namespace Flightdeck.StoreCheck

open StrictJson (Bytes Value Library)

section lines

variable [Library]

/-- The report of a line. -/
def said (allowed : List String) (raw : Bytes) : Option Report :=
  (json raw).bind (report · allowed)

/-- The loop over the lines that have ended; a code ends the whole check. -/
def drain (allowed : List String) : List Bytes → Steps → Steps × Option String
  | [], s => (s, none)
  | line :: lines, s =>
    if line.length > 1024 then (s, some "error")
    else
      match event line s.rows allowed with
      | none => (s, some "error")
      | some rows =>
        match check_failure line with
        | some code => (s.put rows, some code)
        | none => drain allowed lines (s.put rows)

end lines

/-! ## Reports and rows -/

/-- The tables after reports that are all taken. -/
def told : List Report → Steps → Option Steps
  | [], s => some s
  | report :: reports, s =>
    match record s.rows report with
    | some rows => told reports (s.put rows)
    | none => none

/-- The stage has no result yet. -/
def Waiting (rows : List Row) (stage : String) : Prop :=
  ∃ row, rowOf rows stage = some row ∧ row.state.isOpen = true

/-- After a result nothing more is said about a stage. -/
def Consistent (reports : List Report) : Prop :=
  reports.Pairwise fun earlier later => earlier.stage = later.stage → earlier.state.isOpen = true

/-- What changes only rows of these stages, and only forward. -/
structure Moves (stages : List String) (s s' : Steps) : Prop where
  ordered : s.Ordered → s'.Ordered
  table : s'.rows.map Row.stage = s.rows.map Row.stage
  others : ∀ stage, stage ∉ stages → rowOf s'.rows stage = rowOf s.rows stage
  history : s.rows :: s.before <:+ s'.rows :: s'.before

theorem Moves.refl (stages : List String) (s : Steps) : Moves stages s s :=
  ⟨id, rfl, fun _ _ => rfl, List.suffix_refl _⟩

theorem Moves.trans {stages : List String} {a b c : Steps} (first : Moves stages a b)
    (second : Moves stages b c) : Moves stages a c where
  ordered := second.ordered ∘ first.ordered
  table := second.table.trans first.table
  others stage other := (second.others stage other).trans (first.others stage other)
  history := first.history.trans second.history

theorem Moves.mono {some all : List String} (within : some ⊆ all) {s s' : Steps}
    (moves : Moves some s s') : Moves all s s' where
  ordered := moves.ordered
  table := moves.table
  others stage other := moves.others stage fun there => other (within there)
  history := moves.history

theorem Moves.put {stages : List String} {s : Steps} {rows : List Row}
    (forward : Forward s.rows rows)
    (others : ∀ stage, stage ∉ stages → rowOf rows stage = rowOf s.rows stage) :
    Moves stages s (s.put rows) where
  ordered ordered := ordered.put forward
  table := forward.stages
  others := others
  history := List.suffix_cons ..

/-- A report on the row of its stage. -/
def Report.onto (report : Report) (row : Row) : Row := ⟨row.stage, report.state, report.code, none⟩

theorem setRow_report (report : Report) (rows : List Row) :
    setRow (fun _ => report.row) report.stage rows = setRow report.onto report.stage rows := by
  induction rows with
  | nil => rfl
  | cons row rows ih =>
    unfold setRow
    by_cases here : row.stage = report.stage
    · rw [if_pos here, if_pos here, Report.row, Report.onto, here]
    · rw [if_neg here, if_neg here, ih]

theorem record_eq {rows rows' : List Row} {report : Report} :
    record rows report = some rows' ↔ Waiting rows report.stage ∧
      rows' = setRow report.onto report.stage rows := by
  unfold record Waiting
  rw [setRow_report]
  cases found : rowOf rows report.stage with
  | none => simp
  | some row =>
    by_cases isOpen : row.state.isOpen = true
    · simp only [isOpen, if_true, Option.some.injEq, exists_eq_left', true_and]
      exact eq_comm
    · simp [isOpen]

theorem rowOf_record {rows rows' : List Row} {report : Report}
    (recorded : record rows report = some rows') (stage : String) :
    rowOf rows' stage = if stage = report.stage then some report.row else rowOf rows stage := by
  have ⟨⟨row, found, _⟩, same⟩ := record_eq.mp recorded
  rw [same, rowOf_setRow (f := report.onto) fun _ => rfl]
  by_cases here : stage = report.stage
  · rw [if_pos here, if_pos here, here, found, Option.map_some, Report.onto, rowOf_stage found]
    rfl
  · rw [if_neg here, if_neg here]

/-- A report is not about a stage's beginning. -/
theorem State.ofText_ne {text : String} {state : State} (read : State.ofText text = some state) :
    state ≠ .pending := by
  unfold State.ofText at read
  split at read
  all_goals first
    | contradiction
    | rw [← Option.some.inj read]
      decide

theorem report_facts {value : Value} {allowed : List String} {r : Report}
    (said : report value allowed = some r) : r.stage ∈ allowed ∧ r.state ≠ .pending ∧
      (r.state = .passed → r.code = expected r.stage) ∧ member value "stage" = some r.stage := by
  unfold report at said
  split at said
  · contradiction
  · split at said
    · next stage state code hs ht _ =>
      split at said
      · next admitted =>
        have same := Option.some.inj said
        subst same
        simp only [Report.admitted, Bool.and_eq_true, Bool.not_eq_true', Bool.or_eq_false_iff]
          at admitted
        have ⟨text, _, read⟩ := Option.bind_eq_some_iff.mp ht
        refine ⟨by simpa using admitted.1.1, State.ofText_ne read, ?_, hs⟩
        intro passed
        have passed : state = .passed := passed
        have agrees := admitted.2.1
        rw [passed] at agrees
        simpa using agrees
      · contradiction
    · contradiction

theorem Moves.record {s : Steps} {rows : List Row} {report : Report} {stages : List String}
    (there : report.stage ∈ stages) (state : report.state ≠ .pending)
    (recorded : StoreCheck.record s.rows report = some rows) : Moves stages s (s.put rows) := by
  apply Moves.put
  · have ⟨⟨row, found, isOpen⟩, same⟩ := record_eq.mp recorded
    rw [same]
    apply forward_setRow
    intro other found'
    cases Option.some.inj (found.symm.trans found')
    exact .result rfl isOpen state
  · intro stage other
    rw [rowOf_record recorded, if_neg (ne_of_mem_of_not_mem there other).symm]

/-! ## Reports that are told -/

/-- A stage with a result is not reported again. -/
theorem told_closed {reports : List Report} {s s' : Steps} (tell : told reports s = some s')
    {stage : String} {row : Row} (found : rowOf s.rows stage = some row)
    (closed : row.state.isOpen = false) :
    rowOf s'.rows stage = some row ∧ ∀ report ∈ reports, report.stage ≠ stage := by
  induction reports generalizing s with
  | nil =>
    cases Option.some.inj tell
    exact ⟨found, by simp⟩
  | cons report reports ih =>
    unfold told at tell
    cases recorded : record s.rows report with
    | none =>
      rw [recorded] at tell
      contradiction
    | some rows =>
      rw [recorded] at tell
      have different : report.stage ≠ stage := by
        intro same
        have ⟨⟨other, found', isOpen⟩, _⟩ := record_eq.mp recorded
        rw [same, found] at found'
        cases Option.some.inj found'
        rw [closed] at isOpen
        contradiction
      have still : rowOf (s.put rows).rows stage = some row :=
        (rowOf_record recorded stage).trans ((if_neg (Ne.symm different)).trans found)
      have ⟨last, none_later⟩ := ih tell still
      refine ⟨last, ?_⟩
      intro other there
      rcases List.mem_cons.mp there with rfl | there
      · exact different
      · exact none_later other there

/-- A stage ends as passed if and only if it was reported so. -/
theorem told_passed {reports : List Report} {s s' : Steps} (tell : told reports s = some s')
    {stage : String} (waiting : Waiting s.rows stage) :
    (∃ row, rowOf s'.rows stage = some row ∧ row.state = .passed) ↔
      ∃ report ∈ reports, report.stage = stage ∧ report.state = .passed := by
  induction reports generalizing s with
  | nil =>
    cases Option.some.inj tell
    have ⟨row, found, isOpen⟩ := waiting
    constructor
    · rintro ⟨other, found', passed⟩
      cases Option.some.inj (found.symm.trans found')
      rw [passed] at isOpen
      contradiction
    · simp
  | cons report reports ih =>
    unfold told at tell
    cases recorded : record s.rows report with
    | none =>
      rw [recorded] at tell
      contradiction
    | some rows =>
      rw [recorded] at tell
      have next := rowOf_record recorded stage
      by_cases here : report.stage = stage
      · rw [if_pos here.symm] at next
        cases isOpen : report.state.isOpen with
        | true =>
          have waiting' : Waiting (s.put rows).rows stage := ⟨report.row, next, isOpen⟩
          rw [ih tell waiting']
          have other : report.state ≠ .passed := by
            intro passed
            rw [passed] at isOpen
            contradiction
          simp [other]
        | false =>
          have ⟨last, none_later⟩ := told_closed tell next isOpen
          constructor
          · rintro ⟨row, found, passed⟩
            cases Option.some.inj (last.symm.trans found)
            exact ⟨report, List.mem_cons_self .., here, passed⟩
          · rintro ⟨other, there, same, passed⟩
            rcases List.mem_cons.mp there with rfl | there
            · exact ⟨_, last, passed⟩
            · exact absurd same (none_later other there)
      · have waiting' : Waiting (s.put rows).rows stage := by
          have ⟨row, found, isOpen⟩ := waiting
          exact ⟨row, next.trans ((if_neg (Ne.symm here)).trans found), isOpen⟩
        rw [ih tell waiting']
        simp [here]

/-- Reports are all taken when their stages wait and none comes after a result. -/
theorem told_isSome {reports : List Report} {s : Steps} :
    (told reports s).isSome = true ↔
      (∀ report ∈ reports, Waiting s.rows report.stage) ∧ Consistent reports := by
  induction reports generalizing s with
  | nil => simp [told, Consistent]
  | cons report reports ih =>
    unfold told
    cases recorded : record s.rows report with
    | none =>
      have refused : ¬ Waiting s.rows report.stage := by
        intro waiting
        have taken := record_eq.mpr ⟨waiting, rfl⟩
        rw [recorded] at taken
        contradiction
      simp [refused]
    | some rows =>
      have waiting := (record_eq.mp recorded).1
      have next : ∀ stage, Waiting rows stage ↔
          if stage = report.stage then report.state.isOpen = true else Waiting s.rows stage := by
        intro stage
        unfold Waiting
        rw [rowOf_record recorded]
        by_cases here : stage = report.stage <;> simp [here, Report.row]
      show (told reports (s.put rows)).isSome = true ↔ _
      rw [ih]
      unfold Consistent
      rw [List.pairwise_cons, List.forall_mem_cons]
      constructor
      · rintro ⟨open', consistent⟩
        refine ⟨⟨waiting, ?_⟩, ?_, consistent⟩
        · intro other there
          have facts := (next other.stage).mp (open' other there)
          by_cases same : other.stage = report.stage
          · rw [same]
            exact waiting
          · rw [if_neg same] at facts
            exact facts
        · intro other there same
          have facts := (next other.stage).mp (open' other there)
          rwa [if_pos same.symm] at facts
      · rintro ⟨⟨_, open'⟩, running, consistent⟩
        refine ⟨?_, consistent⟩
        intro other there
        apply (next other.stage).mpr
        by_cases same : other.stage = report.stage
        · rw [if_pos same]
          exact running other there same.symm
        · rw [if_neg same]
          exact open' other there

/-! ## Lines that are accepted -/

section lines

variable [Library] {allowed : List String}

omit [Library] in
theorem isFailure_stage {value : Value} {code : String} (failure : isFailure value code = true) :
    member value "stage" = some "check" := by
  simp only [isFailure, Bool.and_eq_true, beq_iff_eq] at failure
  exact failure.1.1.2

theorem check_failure_eq {value : Value} {raw : Bytes} (read : json raw = some value) :
    check_failure raw = none ↔
      (isFailure value "timeout" || isFailure value "error") = false := by
  unfold check_failure
  rw [read]
  simp [and_comm]

/-- A line that is accepted and does not end the check is a report that its row takes. -/
theorem event_said (outside : "check" ∉ allowed) {raw : Bytes} {rows rows' : List Row} :
    (event raw rows allowed = some rows' ∧ check_failure raw = none) ↔
      ∃ r, said allowed raw = some r ∧ record rows r = some rows' := by
  unfold event said
  cases read : json raw with
  | none => simp
  | some value =>
    rw [check_failure_eq read, Option.bind_some]
    dsimp only
    cases failure : isFailure value "timeout" || isFailure value "error" with
    | true =>
      have about : member value "stage" = some "check" := by
        rcases Bool.or_eq_true_iff.mp failure with failure | failure
        · exact isFailure_stage failure
        · exact isFailure_stage failure
      constructor
      · rintro ⟨_, no⟩
        contradiction
      · rintro ⟨r, said, _⟩
        have facts := report_facts said
        rw [about] at facts
        rw [← Option.some.inj facts.2.2.2] at facts
        exact absurd facts.1 outside
    | false =>
      cases said : report value allowed with
      | none => simp
      | some r => simp

/-- Lines that are accepted, with what they report. -/
def Accepted (allowed : List String) (lines : List Bytes) (reports : List Report) : Prop :=
  List.Forall₂ (fun line r => line.length ≤ 1024 ∧ said allowed line = some r) lines reports

theorem drain_eq (outside : "check" ∉ allowed) {lines : List Bytes} {s s' : Steps} :
    drain allowed lines s = (s', none) ↔
      ∃ reports, Accepted allowed lines reports ∧ told reports s = some s' := by
  induction lines generalizing s with
  | nil => simp [drain, Accepted, told]
  | cons line lines ih =>
    unfold Accepted
    simp only [List.forall₂_cons_left_iff]
    constructor
    · intro drained
      unfold drain at drained
      by_cases long : line.length > 1024
      · rw [if_pos long] at drained
        simp at drained
      · rw [if_neg long] at drained
        cases taken : event line s.rows allowed with
        | none =>
          rw [taken] at drained
          simp at drained
        | some rows =>
          rw [taken] at drained
          cases failure : check_failure line with
          | some code =>
            rw [failure] at drained
            simp at drained
          | none =>
            rw [failure] at drained
            have ⟨r, said, recorded⟩ := (event_said outside).mp ⟨taken, failure⟩
            have ⟨reports, accepted, tell⟩ := ih.mp drained
            refine ⟨r :: reports, ⟨r, reports, ⟨by omega, said⟩, accepted, rfl⟩, ?_⟩
            unfold told
            rw [recorded]
            exact tell
    · rintro ⟨_, ⟨r, reports, ⟨short, said⟩, accepted, rfl⟩, tell⟩
      unfold told at tell
      cases recorded : record s.rows r with
      | none =>
        rw [recorded] at tell
        contradiction
      | some rows =>
        rw [recorded] at tell
        have ⟨taken, failure⟩ := (event_said outside).mpr ⟨r, said, recorded⟩
        unfold drain
        rw [if_neg (by omega), taken, failure]
        exact ih.mpr ⟨reports, accepted, tell⟩

/-- What is reported is about the helper's own stages. -/
theorem Accepted.stages {lines : List Bytes} {reports : List Report}
    (accepted : Accepted allowed lines reports) : ∀ r ∈ reports, r.stage ∈ allowed := by
  induction accepted with
  | nil => simp
  | cons head _ ih =>
    intro r there
    rcases List.mem_cons.mp there with rfl | there
    · have ⟨value, _, said⟩ := Option.bind_eq_some_iff.mp head.2
      exact (report_facts said).1
    · exact ih r there

/-- A stage that is reported as passed has its code. -/
theorem Accepted.code {lines : List Bytes} {reports : List Report}
    (accepted : Accepted allowed lines reports) :
    ∀ r ∈ reports, r.state = .passed → r.code = expected r.stage := by
  induction accepted with
  | nil => simp
  | cons head _ ih =>
    intro r there
    rcases List.mem_cons.mp there with rfl | there
    · have ⟨value, _, said⟩ := Option.bind_eq_some_iff.mp head.2
      exact (report_facts said).2.2.1
    · exact ih r there

/-! ## Only forward -/

omit [Library] in
theorem Moves.finish_pending {stages all : List String} (within : stages ⊆ all) (s : Steps)
    (code : String) : Moves all s (s.put (StoreCheck.finish_pending s.rows stages code)) := by
  apply Moves.put (forward_finish_pending ..)
  intro stage other
  rw [rowOf_finish_pending]
  cases found : rowOf s.rows stage with
  | none => rfl
  | some row =>
    have outside : row.stage ∉ stages := by
      rw [rowOf_stage found]
      exact fun there => other (within there)
    rw [Option.map_some, finished_other outside]

theorem Moves.event {raw : Bytes} {s : Steps} {rows : List Row}
    (taken : StoreCheck.event raw s.rows allowed = some rows) : Moves allowed s (s.put rows) := by
  unfold StoreCheck.event at taken
  cases read : json raw with
  | none =>
    rw [read] at taken
    contradiction
  | some value =>
    rw [read] at taken
    dsimp only at taken
    cases failure : isFailure value "timeout" || isFailure value "error" with
    | true =>
      rw [failure, if_pos rfl] at taken
      rw [← Option.some.inj taken]
      exact .finish_pending (List.Subset.refl _) s _
    | false =>
      rw [failure, if_neg Bool.false_ne_true] at taken
      cases said : report value allowed with
      | none =>
        rw [said] at taken
        contradiction
      | some r =>
        rw [said] at taken
        have facts := report_facts said
        exact .record facts.1 facts.2.1 taken

theorem Moves.drain (lines : List Bytes) (s : Steps) :
    Moves allowed s (StoreCheck.drain allowed lines s).1 := by
  induction lines generalizing s with
  | nil => exact .refl allowed s
  | cons line lines ih =>
    unfold StoreCheck.drain
    split
    · exact .refl allowed s
    · cases taken : StoreCheck.event line s.rows allowed with
      | none => exact .refl allowed s
      | some rows =>
        cases failure : check_failure line with
        | some code =>
          exact .event taken
        | none =>
          exact (Moves.event taken).trans (ih _)

end lines

end Flightdeck.StoreCheck
