import Flightdeck.Store.CatalogBatch

/-!
# The results of catalog batches

The cache stays within its bounds, and a query that succeeds returns every product that it was asked
for, in the order in which they were first asked for, whatever its workers do in which order.
-/

namespace Flightdeck.Store.Catalog

open Foundation

/-! ## The cache -/

def Cached.weight (entry : Cached) : Nat := entry.bytes.length

/-- The sizes of the cached documents. -/
def State.total (s : State) : Nat := totalWeight Cached.weight s.cache

namespace State

/-- The counter is the sum of the sizes, and both limits hold. -/
structure Bounded (s : State) : Prop where
  counted : s.cacheBytes.toNat = s.total
  limited : s.total ≤ 16 * 1024 * 1024
  entries : s.cache.size ≤ 256
  exact : s.underflowed = false

variable {s : State}

theorem Bounded.start : Bounded {} := by
  constructor
  · exact (totalWeight_empty _).symm
  · exact (totalWeight_empty _).trans_le (Nat.zero_le _)
  · exact Nat.zero_le _
  · rfl

theorem toNat_size {bytes : Bytes} (h : bytes.length ≤ 16 * 1024 * 1024) :
    (size bytes).toNat = bytes.length := by
  apply UInt64.toNat_ofNat_of_lt'
  have : UInt64.size = 18446744073709551616 := rfl
  omega

theorem remove_total {key : String} {entry : Cached} (h : s.cache[key]? = some entry) :
    s.total = entry.bytes.length + (s.remove key entry).total :=
  totalWeight_erase Cached.weight h

theorem remove_size {key : String} {entry : Cached} (h : s.cache[key]? = some entry) :
    s.cache.size = (s.remove key entry).cache.size + 1 := by
  have hmem : key ∈ s.cache := by
    rw [Std.ExtTreeMap.mem_iff_isSome_getElem?, h]
    simp
  have hpos : s.cache.size ≠ 0 := by
    intro hzero
    have hempty : s.cache.isEmpty = true := by
      rw [Std.ExtTreeMap.isEmpty_eq_size_beq_zero, hzero]
      rfl
    rw [Std.ExtTreeMap.isEmpty_iff.mp hempty] at hmem
    simp at hmem
  show _ = (s.cache.erase key).size + 1
  rw [Std.ExtTreeMap.size_erase, if_pos (Std.ExtTreeMap.mem_iff_contains.mp hmem)]
  omega

/-- An entry is no larger than the counter, so that subtracting it is exact. -/
theorem Bounded.remove (hs : s.Bounded) {key : String} {entry : Cached}
    (h : s.cache[key]? = some entry) : (s.remove key entry).Bounded := by
  have htotal := remove_total h
  have hsize := remove_size h
  have hlimited := hs.limited
  have hcounted := hs.counted
  have hentry : (size entry.bytes).toNat = entry.bytes.length := toNat_size (by omega)
  have hle : size entry.bytes ≤ s.cacheBytes := by
    rw [UInt64.le_iff_toNat_le]
    omega
  constructor
  · show (s.cacheBytes - size entry.bytes).toNat = _
    rw [UInt64.toNat_sub_of_le _ _ hle]
    omega
  · omega
  · have := hs.entries
    omega
  · show (s.underflowed || decide (s.cacheBytes < size entry.bytes)) = false
    rw [hs.exact, Bool.false_or, decide_eq_false_iff_not]
    exact UInt64.not_lt.mpr hle

theorem Bounded.get (hs : s.Bounded) (key : String) (now : UInt64) : (s.get key now).2.Bounded := by
  unfold State.get
  cases hentry : s.cache[key]? with
  | none => exact hs
  | some entry =>
    by_cases hexpired : entry.expires ≤ now
    · simp only [if_pos hexpired]
      exact hs.remove hentry
    · simp only [if_neg hexpired]
      exact hs

theorem Bounded.replaced (hs : s.Bounded) (key : String) : (s.replaced key).Bounded := by
  unfold State.replaced
  cases hentry : s.cache[key]? with
  | none => exact hs
  | some entry => exact hs.remove hentry

theorem replaced_absent (key : String) : (s.replaced key).cache[key]? = none := by
  unfold State.replaced
  cases hentry : s.cache[key]? with
  | none => exact hentry
  | some entry =>
    show (s.cache.erase key)[key]? = none
    rw [getElem?_erase_eq, if_pos rfl]

theorem remove_absent {key other : String} {entry : Cached} (h : s.cache[key]? = none) :
    (s.remove other entry).cache[key]? = none := by
  show (s.cache.erase other)[key]? = none
  rw [getElem?_erase_eq, h, ite_self]

/-- The first entry of a map is an entry of it. -/
theorem getElem?_of_head {key : String} {entry : Cached}
    (h : s.cache.toList.head? = some (key, entry)) : s.cache[key]? = some entry :=
  mem_toList_iff.mp (List.mem_of_mem_head? h)

/-- The loop ends with room for the new entry. -/
structure Roomy (bytes : Bytes) (s : State) : Prop extends s.Bounded where
  entry : s.cache.size < 256
  room : s.total + bytes.length ≤ 16 * 1024 * 1024

/-- With an empty cache there is room for any entry. -/
theorem Bounded.roomy_of_empty (hs : s.Bounded) {bytes : Bytes} (hbytes : bytes.length ≤ MAX_ENTRY)
    (h : s.cache.size = 0) : s.Roomy bytes := by
  have hempty : s.cache = ∅ := by
    apply Std.ExtTreeMap.isEmpty_iff.mp
    rw [Std.ExtTreeMap.isEmpty_eq_size_beq_zero, h]
    rfl
  refine ⟨hs, by omega, ?_⟩
  have htotal : s.total = 0 := by
    rw [State.total, hempty]
    exact totalWeight_empty _
  unfold MAX_ENTRY at hbytes
  omega

/-- The loop goes on until there is room. -/
theorem Bounded.roomy_of_not (hs : s.Bounded) {bytes : Bytes} (hbytes : bytes.length ≤ MAX_ENTRY)
    (h : ¬(MAX_ENTRIES ≤ s.cache.size ∨ MAX_BYTES < s.cacheBytes + size bytes)) :
    s.Roomy bytes := by
  rw [not_or] at h
  refine ⟨hs, not_le.mp h.1, ?_⟩
  have hlast := UInt64.not_lt.mp h.2
  rw [UInt64.le_iff_toNat_le, UInt64.toNat_add] at hlast
  have hmax : MAX_BYTES.toNat = 16 * 1024 * 1024 := rfl
  unfold MAX_ENTRY at hbytes
  have hsize : (size bytes).toNat = bytes.length := toNat_size (by omega)
  have hlimited := hs.limited
  have hcounted := hs.counted
  omega

theorem Bounded.evict {bytes : Bytes} (hbytes : bytes.length ≤ MAX_ENTRY) (turns : Nat)
    (hs : s.Bounded) (hturns : s.cache.size ≤ turns) : (State.evict bytes turns s).Roomy bytes := by
  induction turns generalizing s with
  | zero => exact hs.roomy_of_empty hbytes (by omega)
  | succ turns ih =>
    unfold State.evict
    cases hhead : s.cache.toList.head? with
    | none =>
      apply hs.roomy_of_empty hbytes
      rw [← Std.ExtTreeMap.length_toList, List.head?_eq_none_iff.mp hhead]
      rfl
    | some row =>
      obtain ⟨key, entry⟩ := row
      have hentry := getElem?_of_head hhead
      by_cases hfull : MAX_ENTRIES ≤ s.cache.size ∨ MAX_BYTES < s.cacheBytes + size bytes
      · simp only [if_pos hfull]
        apply ih (hs.remove hentry)
        have := remove_size hentry
        omega
      · simp only [if_neg hfull]
        exact hs.roomy_of_not hbytes hfull

theorem evict_absent {key : String} (bytes : Bytes) (turns : Nat) (h : s.cache[key]? = none) :
    (State.evict bytes turns s).cache[key]? = none := by
  induction turns generalizing s with
  | zero => exact h
  | succ turns ih =>
    unfold State.evict
    cases s.cache.toList.head? with
    | none => exact h
    | some row =>
      by_cases hfull : MAX_ENTRIES ≤ s.cache.size ∨ MAX_BYTES < s.cacheBytes + size bytes
      · simp only [if_pos hfull]
        exact ih (remove_absent h)
      · simp only [if_neg hfull]
        exact h

/-- The key is new, so that the counter grows by what is stored. -/
theorem Roomy.insert {bytes : Bytes} (hs : s.Roomy bytes) {key : String}
    (h : s.cache[key]? = none) (expires : UInt64) :
    Bounded { s with
      cache := s.cache.insertIfNew key ⟨bytes, expires⟩
      cacheBytes := s.cacheBytes + size bytes } := by
  have hroom := hs.room
  have htotal : totalWeight Cached.weight (s.cache.insertIfNew key ⟨bytes, expires⟩) =
      bytes.length + s.total := totalWeight_insertIfNew Cached.weight _ h
  constructor
  · show (s.cacheBytes + size bytes).toNat =
      totalWeight Cached.weight (s.cache.insertIfNew key ⟨bytes, expires⟩)
    rw [htotal, UInt64.toNat_add, toNat_size (by omega), hs.counted]
    omega
  · show totalWeight Cached.weight (s.cache.insertIfNew key ⟨bytes, expires⟩) ≤ _
    omega
  · have hsize : (s.cache.insertIfNew key ⟨bytes, expires⟩).size ≤ s.cache.size + 1 :=
      Std.ExtTreeMap.size_insertIfNew_le
    have := hs.entry
    exact le_trans hsize (by omega)
  · exact hs.exact

theorem Bounded.put (hs : s.Bounded) (key : String) (bytes : Bytes) (now : UInt64)
    (allocated : Bool) : (s.put key bytes now allocated).Bounded := by
  unfold State.put
  by_cases hskip : (bytes.isEmpty || decide (MAX_ENTRY < bytes.length)) = true
  · rw [if_pos hskip]
    exact hs
  · rw [if_neg hskip]
    have hbytes : bytes.length ≤ MAX_ENTRY := by
      simp only [Bool.or_eq_true, decide_eq_true_eq, not_or, not_lt] at hskip
      exact hskip.2
    have hroomy := (hs.replaced key).evict hbytes (s.replaced key).cache.size le_rfl
    have habsent := evict_absent bytes (s.replaced key).cache.size
      (replaced_absent (s := s) key)
    cases allocated with
    | false => exact hroomy.toBounded
    | true => exact hroomy.insert habsent _

end State

/-! ## The ids of a query -/

/-- Every requested id once, in the order of the first requests. -/
structure InOrder (ids unique : List String) : Prop where
  once : unique.Nodup
  mem : ∀ id, id ∈ unique ↔ id ∈ ids
  first : unique.Pairwise fun a b => ids.idxOf a < ids.idxOf b

section

variable {ids unique : List String} {id : String}

theorem InOrder.again (h : InOrder ids unique) (hid : id ∈ ids) : InOrder (ids ++ [id]) unique := by
  refine ⟨h.once, fun a => ?_, ?_⟩
  · rw [h.mem, List.mem_append, List.mem_singleton]
    constructor
    · exact .inl
    · intro ha
      rcases ha with ha | rfl
      · exact ha
      · exact hid
  · apply h.first.imp_of_mem
    intro a b ha hb hab
    rwa [List.idxOf_append_of_mem ((h.mem a).mp ha), List.idxOf_append_of_mem ((h.mem b).mp hb)]

theorem InOrder.fresh (h : InOrder ids unique) (hid : id ∉ ids) :
    InOrder (ids ++ [id]) (unique ++ [id]) := by
  have hunique : id ∉ unique := fun hmem => hid ((h.mem id).mp hmem)
  refine ⟨?_, fun a => ?_, ?_⟩
  · exact List.nodup_append.mpr ⟨h.once, List.nodup_singleton id,
      fun a ha b hb => by rintro rfl; exact hunique (List.mem_singleton.mp hb ▸ ha)⟩
  · rw [List.mem_append, List.mem_append, h.mem]
  · apply List.pairwise_append.mpr
    refine ⟨?_, List.pairwise_singleton _ _, ?_⟩
    · apply h.first.imp_of_mem
      intro a b ha hb hab
      rwa [List.idxOf_append_of_mem ((h.mem a).mp ha),
        List.idxOf_append_of_mem ((h.mem b).mp hb)]
    · intro a ha b hb
      rw [List.mem_singleton.mp hb, List.idxOf_append_of_mem ((h.mem a).mp ha),
        List.idxOf_append_of_notMem hid]
      exact (List.idxOf_lt_length_iff.mpr ((h.mem a).mp ha)).trans_le (Nat.le_add_right _ _)

theorem collect_inOrder {seen : TextSet} {rest result : List String}
    (h : collect rest seen unique = .ok result) (hseen : ∀ a, seen.contains a = true ↔ a ∈ ids)
    (horder : InOrder ids unique) : InOrder (ids ++ rest) result := by
  induction rest generalizing ids seen unique with
  | nil =>
    cases h
    rwa [List.append_nil]
  | cons id rest ih =>
    rw [List.append_cons]
    unfold collect at h
    by_cases hvalid : productId id = true
    · rw [hvalid, Bool.not_true, if_neg Bool.false_ne_true] at h
      by_cases hid : seen.contains id = true
      · rw [if_pos hid] at h
        apply ih h _ (horder.again ((hseen id).mp hid))
        intro a
        rw [hseen, List.mem_append, List.mem_singleton]
        constructor
        · exact .inl
        · intro ha
          rcases ha with ha | rfl
          · exact ha
          · exact (hseen _).mp hid
      · rw [if_neg hid] at h
        apply ih h _ (horder.fresh fun hmem => hid ((hseen id).mpr hmem))
        intro a
        rw [Std.ExtTreeMap.contains_insert, Bool.or_eq_true, hseen, beq_iff_eq,
          Std.LawfulEqCmp.compare_eq_iff_eq, List.mem_append, List.mem_singleton, or_comm, eq_comm]
    · rw [Bool.not_eq_true] at hvalid
      rw [hvalid, Bool.not_false, if_pos rfl] at h
      cases h

theorem prepare_inOrder {cancelled : Bool} {deadline start now : UInt64}
    {result : UInt64 × List String} (h : prepare ids cancelled deadline start now = .ok result) :
    InOrder ids result.2 ∧ result.2 ≠ [] := by
  unfold prepare at h
  by_cases hids : (ids.isEmpty || decide (100 < ids.length)) = true
  · rw [if_pos hids] at h
    cases h
  rw [if_neg hids] at h
  cases cancelled with
  | true => cases h
  | false =>
    rw [if_neg Bool.false_ne_true] at h
    by_cases hlate : (if deadline = 0 then start + 30000 else deadline) ≤ now
    · simp only [if_pos hlate] at h
      cases h
    · simp only [if_neg hlate] at h
      cases hcollect : collect ids ∅ [] with
      | error hr =>
        rw [hcollect] at h
        cases h
      | ok unique =>
        rw [hcollect] at h
        cases h
        have horder : InOrder ([] ++ ids) unique :=
          collect_inOrder hcollect (by simp) ⟨List.nodup_nil, by simp, .nil⟩
        refine ⟨horder, ?_⟩
        intro hnil
        cases ids with
        | nil => exact hids rfl
        | cons id ids =>
          have hmem := (horder.mem id).mpr (List.mem_cons_self ..)
          change id ∈ unique at hmem
          rw [show unique = [] from hnil] at hmem
          cases hmem

end

/-! ## What holds of a query -/

/-- The lookup is one that ends the query. -/
def Lookup.Fails (l : Lookup) : Prop :=
  failed l.hr = true ∨ l.value.id ≠ l.id ∨ l.value.rawJson = []

namespace Batch

/-- The product is what a lookup of the id found. -/
def Answers (b : Batch) (id : String) (value : Product) : Prop :=
  ∃ l ∈ b.lookups, l.id = id ∧ l.value = value ∧ ¬ l.Fails

/-- The slot holds what was found for its id. -/
def Filled (b : Batch) (index : Nat) : Prop :=
  ∃ value, b.Answers (b.id index) value ∧ b.products[index]? = some (b.kept value)

/-- A failure is stored, or a worker is about to store one. -/
def Failing (b : Batch) : Prop :=
  failed b.failure = true ∨ ∃ hr, .failing hr ∈ b.workers

end Batch

/-- The index that the worker has claimed. -/
def Worker.index : Worker → Option Nat
  | .lookup index => some index
  | .parse index _ => some index
  | .fetch index => some index
  | .count index _ _ => some index
  | .put index _ => some index
  | .fill index _ => some index
  | _ => none

/-- What is known of a worker. -/
def Worker.Sound (b : Batch) : Worker → Prop
  | .count index _ value => b.Answers (b.id index) value
  | .put index value => b.Answers (b.id index) value
  | .fill index value => b.Answers (b.id index) value
  | .failing hr => failed hr = true
  | .stopping => failed b.failure = true
  | .leaving => failed b.failure = true ∨ b.unique.length ≤ b.next
  | .done => failed b.failure = true ∨ b.unique.length ≤ b.next
  | _ => True

/-- What is known where the caller stands. -/
def Caller.Sound (b : Batch) : Caller → Prop
  | .spawning left => b.workers.length + left ≠ 0
  | .watching => b.workers ≠ []
  | .halting => b.workers ≠ [] ∧ failed b.failure = true
  | .joining => b.workers ≠ []
  | .abandoning => failed b.failure = true
  | .abandoned => failed b.failure = true
  | .returned (.error _) => True
  | .returned (.ok products) => (∀ w ∈ b.workers, w = .done) ∧ (∀ l ∈ b.lookups, ¬ l.Fails) ∧
      products.length = b.unique.length ∧
      ∀ index, index < b.unique.length →
        ∃ value, b.Answers (b.id index) value ∧ products[index]? = some (b.kept value)

structure Batch.Good (b : Batch) : Prop where
  order : InOrder b.ids b.unique
  asked : b.unique ≠ []
  slots : b.products.length = b.unique.length
  failure : b.failure = S_OK ∨ failed b.failure = true
  stopped : b.stop = true → failed b.failure = true
  claimed : ∀ index, index < b.next → index < b.unique.length →
    b.Filled index ∨ b.Failing ∨ ∃ w ∈ b.workers, w.index = some index
  lookups : ∀ l ∈ b.lookups, l.Fails → b.Failing
  workers : ∀ w ∈ b.workers, w.Sound b
  caller : b.caller.Sound b

/-! ## Steps of a query -/

namespace Batch

/-- Nothing that is known of `b` is forgotten. -/
structure Onward (b b' : Batch) : Prop where
  ids : b'.ids = b.ids
  unique : b'.unique = b.unique
  keepRaw : b'.keepRaw = b.keepRaw
  next : b.next ≤ b'.next
  lookups : ∀ l ∈ b.lookups, l ∈ b'.lookups
  failed : Flightdeck.failed b.failure = true → Flightdeck.failed b'.failure = true

variable {b b' : Batch} {w w' : Worker}

theorem Onward.id (h : Onward b b') (index : Nat) : b'.id index = b.id index := by
  unfold Batch.id
  rw [h.unique]

theorem Onward.kept (h : Onward b b') (value : Product) : b'.kept value = b.kept value := by
  unfold Batch.kept
  rw [h.keepRaw]

theorem Onward.answers (h : Onward b b') {id : String} {value : Product}
    (ha : b.Answers id value) : b'.Answers id value := by
  obtain ⟨l, hl, hrest⟩ := ha
  exact ⟨l, h.lookups l hl, hrest⟩

theorem Onward.sound (h : Onward b b') (hw : w.Sound b) : w.Sound b' := by
  have hleft (hend : Flightdeck.failed b.failure = true ∨ b.unique.length ≤ b.next) :
      Flightdeck.failed b'.failure = true ∨ b'.unique.length ≤ b'.next := by
    rw [h.unique]
    exact hend.imp h.failed fun hle => hle.trans h.next
  cases w with
  | count index fetched value =>
    show b'.Answers (b'.id index) value
    rw [Onward.id h index]
    exact h.answers hw
  | put index value =>
    show b'.Answers (b'.id index) value
    rw [Onward.id h index]
    exact h.answers hw
  | fill index value =>
    show b'.Answers (b'.id index) value
    rw [Onward.id h index]
    exact h.answers hw
  | failing hr => exact hw
  | stopping => exact h.failed hw
  | leaving => exact hleft hw
  | done => exact hleft hw
  | _ => trivial

theorem Onward.filled (h : Onward b b') (hproducts : b'.products = b.products) {index : Nat}
    (hfilled : b.Filled index) : b'.Filled index := by
  obtain ⟨value, hanswers, hslot⟩ := hfilled
  refine ⟨value, ?_, ?_⟩
  · rw [h.id]
    exact h.answers hanswers
  · rw [hproducts, h.kept]
    exact hslot

/-- What a turn of the worker `w` may do. -/
structure Advance (b : Batch) (w : Worker) (b' : Batch) (w' : Worker) : Prop extends
    Onward b b' where
  caller : b'.caller = b.caller
  slots : b'.products.length = b.products.length
  failure : b'.failure = S_OK ∨ Flightdeck.failed b'.failure = true
  stopped : b'.stop = true → Flightdeck.failed b'.failure = true
  filled : ∀ index, b.Filled index → b'.Filled index
  claimed : ∀ index, index < b'.next → index < b.unique.length →
    index < b.next ∨ w'.index = some index
  held : ∀ index, w.index = some index → index < b.unique.length →
    w'.index = some index ∨ b'.Filled index ∨ ∃ hr, w' = .failing hr
  failing : ∀ hr, w = .failing hr → Flightdeck.failed b'.failure = true
  fails : ∀ l ∈ b'.lookups, l.Fails → l ∈ b.lookups ∨ ∃ hr, w' = .failing hr
  sound : w'.Sound b'

/-- What the other workers have claimed stays, and what this one had is accounted for. -/
theorem Good.work (g : b.Good) {k : Nat} (hk : b.workers[k]? = some w) (hdone : w ≠ .done)
    (h : Advance b w b' w') : Good { b' with workers := b.workers.set k w' } := by
  have hlt : k < b.workers.length := (List.getElem?_eq_some_iff.mp hk).1
  have hself : w' ∈ b.workers.set k w' := by
    apply List.mem_of_getElem? (i := k)
    rw [List.getElem?_set_self hlt]
  have hother {v : Worker} (hv : v ∈ b.workers) : v = w ∨ v ∈ b.workers.set k w' := by
    obtain ⟨j, hj⟩ := List.mem_iff_getElem?.mp hv
    by_cases hjk : k = j
    · rw [← hjk, hk] at hj
      exact .inl (Option.some_inj.mp hj).symm
    · right
      apply List.mem_of_getElem? (i := j)
      rw [List.getElem?_set_ne hjk, hj]
  have hfailing (hold : b.Failing) : Failing { b' with workers := b.workers.set k w' } := by
    rcases hold with hold | hold
    · exact .inl (h.failed hold)
    · obtain ⟨hr, hmem⟩ := hold
      rcases hother hmem with heq | hmem
      · exact .inl (h.failing hr heq.symm)
      · exact .inr ⟨hr, hmem⟩
  have honward : Onward b' { b' with workers := b.workers.set k w' } :=
    ⟨rfl, rfl, rfl, le_rfl, fun _ h => h, fun h => h⟩
  constructor
  · show InOrder b'.ids b'.unique
    rw [h.ids, h.unique]
    exact g.order
  · show b'.unique ≠ []
    rw [h.unique]
    exact g.asked
  · show b'.products.length = b'.unique.length
    rw [h.slots, h.unique]
    exact g.slots
  · exact h.failure
  · exact h.stopped
  · intro index hnext hindex
    change index < b'.next at hnext
    change index < b'.unique.length at hindex
    rw [h.unique] at hindex
    rcases h.claimed index hnext hindex with hold | hnew
    · rcases g.claimed index hold hindex with hfilled | hfail | hheld
      · exact .inl (honward.filled rfl (h.filled index hfilled))
      · exact .inr (.inl (hfailing hfail))
      · obtain ⟨v, hv, hv'⟩ := hheld
        rcases hother hv with rfl | hmem
        · rcases h.held index hv' hindex with hw' | hfilled | hfail
          · exact .inr (.inr ⟨w', hself, hw'⟩)
          · exact .inl (honward.filled rfl hfilled)
          · obtain ⟨hr, rfl⟩ := hfail
            exact .inr (.inl (.inr ⟨hr, hself⟩))
        · exact .inr (.inr ⟨v, hmem, hv'⟩)
    · exact .inr (.inr ⟨w', hself, hnew⟩)
  · intro l hl hfails
    rcases h.fails l hl hfails with hold | hfail
    · exact hfailing (g.lookups l hold hfails)
    · obtain ⟨hr, rfl⟩ := hfail
      exact .inr ⟨hr, hself⟩
  · intro v hv
    apply honward.sound
    rcases List.mem_or_eq_of_mem_set hv with hold | rfl
    · exact h.toOnward.sound (g.workers v hold)
    · exact h.sound
  · have hcaller := g.caller
    have hne (hsome : b.workers ≠ []) : b.workers.set k w' ≠ [] := by
      rw [Ne, List.set_eq_nil_iff]
      exact hsome
    show b'.caller.Sound _
    rw [h.caller]
    cases hc : b.caller with
    | spawning left =>
      rw [hc] at hcaller
      show (b.workers.set k w').length + left ≠ 0
      rw [List.length_set]
      exact hcaller
    | watching =>
      rw [hc] at hcaller
      exact hne hcaller
    | halting =>
      rw [hc] at hcaller
      exact ⟨hne hcaller.1, h.failed hcaller.2⟩
    | joining =>
      rw [hc] at hcaller
      exact hne hcaller
    | abandoning =>
      rw [hc] at hcaller
      exact h.failed hcaller
    | abandoned =>
      rw [hc] at hcaller
      exact h.failed hcaller
    | returned result =>
      cases result with
      | error hr => trivial
      | ok products =>
        -- every worker of a query that returned is done
        rw [hc] at hcaller
        exact absurd (hcaller.1 w (List.mem_of_getElem? hk)) hdone

/-- The worker goes on and keeps its index, or it fails; only counters and the stop change. -/
theorem Good.counters (g : b.Good) {bytes : UInt64} {active : Nat} {stop : Bool}
    (hstop : stop = true → Flightdeck.failed b.failure = true) (hsound : w'.Sound b)
    (hw : ∀ hr, w ≠ .failing hr)
    (hindex : ∀ index, w.index = some index → w'.index = some index ∨ ∃ hr, w' = .failing hr) :
    Advance b w { b with bytes, active, stop } w' where
  ids := rfl
  unique := rfl
  keepRaw := rfl
  next := le_rfl
  lookups := fun _ h => h
  failed := fun h => h
  caller := rfl
  slots := rfl
  failure := g.failure
  stopped := hstop
  filled := fun _ h => h
  claimed := fun _ h _ => .inl h
  held := fun index h _ => (hindex index h).imp_right .inr
  failing := fun hr h => absurd h (hw hr)
  fails := fun _ h _ => .inl h
  sound := Onward.sound ⟨rfl, rfl, rfl, le_rfl, fun _ h => h, fun h => h⟩ hsound

theorem Good.idle (g : b.Good) (hsound : w'.Sound b) (hw : ∀ hr, w ≠ .failing hr)
    (hindex : ∀ index, w.index = some index → w'.index = some index ∨ ∃ hr, w' = .failing hr) :
    Advance b w b w' :=
  g.counters g.stopped hsound hw hindex

/-- The end of a lookup is logged. -/
theorem Good.log (g : b.Good) {index : Nat} {hr : HResult} {value : Product}
    (hsound : w'.Sound (b.log index hr value)) (hw : ∀ hr, w ≠ .failing hr)
    (hw' : (∃ hr, w' = .failing hr) ∨
      w.index = some index ∧ w'.index = some index ∧ ¬ (Lookup.mk (b.id index) hr value).Fails) :
    Advance b w (b.log index hr value) w' where
  ids := rfl
  unique := rfl
  keepRaw := rfl
  next := le_rfl
  lookups := fun _ h => List.mem_cons_of_mem _ h
  failed := fun h => h
  caller := rfl
  slots := rfl
  failure := g.failure
  stopped := g.stopped
  filled := by
    intro i hfilled
    obtain ⟨v, ⟨l, hl, hrest⟩, hslot⟩ := hfilled
    exact ⟨v, ⟨l, List.mem_cons_of_mem _ hl, hrest⟩, hslot⟩
  claimed := fun _ h _ => .inl h
  held := by
    intro i hi _
    rcases hw' with hfail | ⟨hold, hnew, _⟩
    · exact .inr (.inr hfail)
    · rw [hold] at hi
      exact .inl (hnew.trans hi)
  failing := fun hr h => absurd h (hw hr)
  fails := by
    intro l hl hfails
    rcases List.mem_cons.mp hl with rfl | hold
    · rcases hw' with hfail | ⟨_, _, hfine⟩
      · exact .inr hfail
      · exact absurd hfails hfine
    · exact .inl hold
  sound := hsound

theorem failed_thrownCode (badAlloc : Bool) : Flightdeck.failed (thrownCode badAlloc) = true := by
  cases badAlloc <;> decide

theorem Good.thrown (g : b.Good) (hw : ∀ hr, w ≠ .failing hr) (index : Nat) (badAlloc : Bool) :
    Advance b w (b.thrown index badAlloc).2 (b.thrown index badAlloc).1 :=
  g.log (failed_thrownCode badAlloc) hw (.inl ⟨_, rfl⟩)

theorem Good.answer (g : b.Good) {index : Nat} (hw : ∀ hr, w ≠ .failing hr)
    (hindex : w.index = some index) (fetched : Bool) (hr : HResult) (value : Product) :
    Advance b w (b.answer index fetched hr value).2 (b.answer index fetched hr value).1 := by
  unfold Batch.answer
  by_cases hfailed : Flightdeck.failed hr = true
  · simp only [if_pos hfailed]
    exact g.log hfailed hw (.inl ⟨_, rfl⟩)
  · simp only [if_neg hfailed]
    by_cases hinvalid : (value.id != (b.log index hr value).id index || value.rawJson.isEmpty) = true
    · simp only [if_pos hinvalid]
      exact g.log (show Flightdeck.failed INVALID_DATA = true by decide) hw (.inl ⟨_, rfl⟩)
    · simp only [if_neg hinvalid]
      have hfine : ¬ (Lookup.mk (b.id index) hr value).Fails := by
        simp only [Bool.or_eq_true, bne_iff_ne, List.isEmpty_iff, not_or, not_not] at hinvalid
        intro hfails
        rcases hfails with h | h | h
        · exact hfailed h
        · exact h hinvalid.1
        · exact hinvalid.2 h
      apply g.log _ hw (.inr ⟨hindex, rfl, hfine⟩)
      exact ⟨⟨b.id index, hr, value⟩, List.mem_cons_self .., rfl, rfl, hfine⟩

theorem Good.claim (g : b.Good) : Advance b .claim b.claim.2 b.claim.1 where
  ids := rfl
  unique := rfl
  keepRaw := rfl
  next := Nat.le_succ _
  lookups := fun _ h => h
  failed := fun h => h
  caller := rfl
  slots := rfl
  failure := g.failure
  stopped := g.stopped
  filled := fun _ h => h
  claimed := by
    intro index hnext hindex
    rcases Nat.lt_succ_iff_lt_or_eq.mp hnext with hold | rfl
    · exact .inl hold
    · right
      show Worker.index (if b.next < b.unique.length then _ else _) = _
      rw [if_pos hindex]
      rfl
  held := by
    intro index h
    cases h
  failing := by
    intro hr h
    cases h
  fails := fun _ h _ => .inl h
  sound := by
    show Worker.Sound _ (if b.next < b.unique.length then _ else _)
    by_cases hnext : b.next < b.unique.length
    · rw [if_pos hnext]
      trivial
    · rw [if_neg hnext]
      exact .inr ((not_lt.mp hnext).trans (Nat.le_succ _))

theorem Good.count (g : b.Good) {index : Nat} {fetched : Bool} {value : Product}
    (hw : b.Answers (b.id index) value) :
    Advance b (.count index fetched value) (b.count index fetched value).2
      (b.count index fetched value).1 := by
  show Advance b _ { b with bytes := b.bytes + size value.rawJson }
    (if MAX_BATCH < b.bytes + size value.rawJson then _ else _)
  by_cases hlarge : MAX_BATCH < b.bytes + size value.rawJson
  · rw [if_pos hlarge]
    exact g.counters g.stopped (show Flightdeck.failed FILE_TOO_LARGE = true by decide) (by nofun)
      fun _ _ => .inr ⟨_, rfl⟩
  · rw [if_neg hlarge]
    cases fetched with
    | true => exact g.counters g.stopped hw (by nofun) fun _ h => .inl h
    | false => exact g.counters g.stopped hw (by nofun) fun _ h => .inl h

theorem Good.fill (g : b.Good) {index : Nat} {value : Product}
    (hw : b.Answers (b.id index) value) :
    Advance b (.fill index value) (b.fill index value) .loop where
  ids := rfl
  unique := rfl
  keepRaw := rfl
  next := le_rfl
  lookups := fun _ h => h
  failed := fun h => h
  caller := rfl
  slots := List.length_set
  failure := g.failure
  stopped := g.stopped
  filled := by
    intro i hfilled
    obtain ⟨v, hanswers, hslot⟩ := hfilled
    by_cases hi : index = i
    · subst hi
      refine ⟨value, hw, ?_⟩
      show (b.products.set index (b.kept value))[index]? = some (b.kept value)
      rw [List.getElem?_set_self (List.getElem?_eq_some_iff.mp hslot).1]
    · refine ⟨v, hanswers, ?_⟩
      show (b.products.set index (b.kept value))[i]? = some (b.kept v)
      rw [List.getElem?_set_ne hi, hslot]
  claimed := fun _ h _ => .inl h
  held := by
    intro i hi hlt
    cases hi
    refine .inr (.inl ⟨value, hw, ?_⟩)
    show (b.products.set index (b.kept value))[index]? = some (b.kept value)
    rw [List.getElem?_set_self (g.slots.symm ▸ hlt)]
  failing := by
    intro hr h
    cases h
  fails := fun _ h _ => .inl h
  sound := trivial

theorem failed_refuse {hr : HResult} (g : b.Good) (hhr : Flightdeck.failed hr = true) :
    Flightdeck.failed (b.refuse hr).failure = true := by
  show Flightdeck.failed (if b.failure = S_OK then hr else b.failure) = true
  by_cases hok : b.failure = S_OK
  · rw [if_pos hok]
    exact hhr
  · rw [if_neg hok]
    exact g.failure.resolve_left hok

theorem Good.refuse (g : b.Good) {hr : HResult} (hhr : Flightdeck.failed hr = true) :
    Advance b (.failing hr) (b.refuse hr) .stopping where
  ids := rfl
  unique := rfl
  keepRaw := rfl
  next := le_rfl
  lookups := fun _ h => h
  failed := fun _ => failed_refuse g hhr
  caller := rfl
  slots := rfl
  failure := .inr (failed_refuse g hhr)
  stopped := fun _ => failed_refuse g hhr
  filled := fun _ h => h
  claimed := fun _ h _ => .inl h
  held := by
    intro i hi
    cases hi
  failing := fun _ _ => failed_refuse g hhr
  fails := fun _ h _ => .inl h
  sound := failed_refuse g hhr

/-- Every turn of a worker. -/
theorem Good.turn (g : b.Good) (parse : Bytes → String → HResult × Product) (s : State)
    (r : Reading) (hw : w.Sound b) :
    Advance b w (b.turn parse s r w).2.1 (b.turn parse s r w).1 := by
  cases w with
  | loop =>
    show Advance b _ b (if b.stop = true then .leaving else .deadline)
    by_cases hstop : b.stop = true
    · rw [if_pos hstop]
      exact g.idle (.inl (g.stopped hstop)) (by nofun) (by nofun)
    · rw [if_neg hstop]
      exact g.idle trivial (by nofun) (by nofun)
  | deadline =>
    show Advance b _ b (if b.deadline ≤ r.now then .failing TIMEOUT else .claim)
    by_cases hlate : b.deadline ≤ r.now
    · rw [if_pos hlate]
      exact g.idle (show Flightdeck.failed TIMEOUT = true by decide) (by nofun) (by nofun)
    · rw [if_neg hlate]
      exact g.idle trivial (by nofun) (by nofun)
  | claim => exact g.claim
  | lookup index =>
    unfold Batch.turn
    cases r.thrown with
    | some badAlloc => exact g.thrown (by nofun) index badAlloc
    | none =>
      show Advance b _ b (if (s.get (b.key index) r.now).1.isEmpty = true then _ else _)
      by_cases hempty : (s.get (b.key index) r.now).1.isEmpty = true
      · rw [if_pos hempty]
        exact g.idle trivial (by nofun) fun _ h => .inl h
      · rw [if_neg hempty]
        exact g.idle trivial (by nofun) fun _ h => .inl h
  | parse index cached => exact g.answer (by nofun) rfl false _ _
  | fetch index =>
    unfold Batch.turn
    cases r.thrown with
    | some badAlloc => exact g.thrown (by nofun) index badAlloc
    | none => exact g.answer (by nofun) rfl true _ _
  | count index fetched value => exact g.count hw
  | put index value =>
    unfold Batch.turn
    cases r.thrown with
    | some badAlloc =>
      exact g.idle (failed_thrownCode badAlloc) (by nofun) fun _ _ => .inr ⟨_, rfl⟩
    | none => exact g.idle hw (by nofun) fun _ h => .inl h
  | fill index value => exact g.fill hw
  | failing hr => exact g.refuse hw
  | stopping => exact g.counters (fun _ => hw) (.inl hw) (by nofun) (by nofun)
  | leaving => exact g.counters g.stopped hw (by nofun) (by nofun)
  | done => exact g.idle hw (by nofun) (by nofun)

theorem turn_bounded {s : State} (hs : s.Bounded) (parse : Bytes → String → HResult × Product)
    (r : Reading) : (b.turn parse s r w).2.2.Bounded := by
  cases w with
  | lookup index =>
    unfold Batch.turn
    cases r.thrown with
    | some badAlloc => exact hs
    | none => exact hs.get _ _
  | fetch index =>
    unfold Batch.turn
    cases r.thrown with
    | some badAlloc => exact hs
    | none => exact hs
  | put index value =>
    unfold Batch.turn
    have hput := hs.put (b.key index) value.rawJson r.now r.thrown.isNone
    cases hthrown : r.thrown with
    | some badAlloc =>
      rw [hthrown] at hput
      exact hput
    | none =>
      rw [hthrown] at hput
      exact hput
  | _ => exact hs

/-! ## Steps of the caller -/

theorem Good.move (g : b.Good) {failure : HResult} {stop : Bool} {caller : Caller}
    (hfailed : Flightdeck.failed b.failure = true → Flightdeck.failed failure = true)
    (hfailure : failure = S_OK ∨ Flightdeck.failed failure = true)
    (hstop : stop = true → Flightdeck.failed failure = true)
    (hcaller : caller.Sound { b with failure, stop, caller }) :
    Good { b with failure, stop, caller } where
  order := g.order
  asked := g.asked
  slots := g.slots
  failure := hfailure
  stopped := hstop
  claimed := by
    intro index hnext hindex
    rcases g.claimed index hnext hindex with hfilled | hfail | hheld
    · exact .inl hfilled
    · exact .inr (.inl (hfail.imp_left hfailed))
    · exact .inr (.inr hheld)
  lookups := fun l hl hfails => (g.lookups l hl hfails).imp_left hfailed
  workers := by
    intro w hw
    have honward : Onward b { b with failure, stop, caller } :=
      ⟨rfl, rfl, rfl, le_rfl, fun _ h => h, hfailed⟩
    exact honward.sound (g.workers w hw)
  caller := hcaller

theorem Good.refused (g : b.Good) {hr : HResult} (hhr : Flightdeck.failed hr = true)
    {caller : Caller} (hcaller : caller.Sound { b.refuse hr with caller }) :
    Good { b.refuse hr with caller } :=
  g.move (fun _ => failed_refuse g hhr) (.inr (failed_refuse g hhr))
    (fun _ => failed_refuse g hhr) hcaller

theorem Good.spawn (g : b.Good) (started : Bool) : (b.spawn started).Good := by
  have hcaller := g.caller
  unfold Batch.spawn
  cases hc : b.caller with
  | spawning left =>
    rw [hc] at hcaller
    cases left with
    | zero =>
      apply g.move (fun h => h) g.failure g.stopped
      intro hnil
      exact hcaller (congrArg List.length hnil)
    | succ left =>
      cases started with
      | false => exact g.refused (by decide) (failed_refuse g (by decide))
      | true =>
        have hfailing (h : b.Failing) : Failing { b with
            active := b.active + 1, workers := b.workers ++ [.loop], caller := .spawning left } :=
          h.imp_right fun ⟨hr, hmem⟩ => ⟨hr, List.mem_append_left _ hmem⟩
        refine ⟨g.order, g.asked, g.slots, g.failure, g.stopped, ?_, ?_, ?_, ?_⟩
        · intro index hnext hindex
          rcases g.claimed index hnext hindex with hfilled | hfail | ⟨w, hw, hheld⟩
          · exact .inl hfilled
          · exact .inr (.inl (hfailing hfail))
          · exact .inr (.inr ⟨w, List.mem_append_left _ hw, hheld⟩)
        · exact fun l hl hfails => hfailing (g.lookups l hl hfails)
        · intro w hw
          rcases List.mem_append.mp hw with hold | hnew
          · exact Onward.sound ⟨rfl, rfl, rfl, le_rfl, fun _ h => h, fun h => h⟩
              (g.workers w hold)
          · rw [List.mem_singleton.mp hnew]
            trivial
        · show (b.workers ++ [Worker.loop]).length + left ≠ 0
          rw [List.length_append]
          exact Nat.ne_of_gt (by simp)
  | _ => exact g

theorem Good.watch (g : b.Good) (cancelled : Bool) : (b.watch cancelled).Good := by
  have hcaller := g.caller
  unfold Batch.watch
  cases hc : b.caller with
  | watching =>
    rw [hc] at hcaller
    have hcode : Flightdeck.failed (if cancelled = true then E_ABORT else TIMEOUT) = true := by
      cases cancelled <;> decide
    by_cases hactive : b.active = 0
    · simp only [if_pos hactive]
      exact g.move (fun h => h) g.failure g.stopped hcaller
    · simp only [if_neg hactive]
      exact g.refused hcode ⟨hcaller, failed_refuse g hcode⟩
  | _ => exact g

theorem Good.halt (g : b.Good) : b.halt.Good := by
  have hcaller := g.caller
  unfold Batch.halt
  cases hc : b.caller with
  | halting =>
    rw [hc] at hcaller
    exact g.move (fun h => h) g.failure (fun _ => hcaller.2) hcaller.1
  | abandoning =>
    rw [hc] at hcaller
    exact g.move (fun h => h) g.failure (fun _ => hcaller) hcaller
  | _ => exact g

/-- When all workers are done and none failed, every slot was claimed, and filled. -/
theorem Good.complete (g : b.Good) (hsome : b.workers ≠ []) (hdone : ∀ w ∈ b.workers, w = .done)
    (hok : Flightdeck.failed b.failure = false) :
    (∀ l ∈ b.lookups, ¬ l.Fails) ∧ ∀ index, index < b.unique.length → b.Filled index := by
  have hfine : ¬ b.Failing := by
    intro h
    rcases h with h | ⟨hr, hmem⟩
    · rw [hok] at h
      cases h
    · cases hdone _ hmem
  have hnext : b.unique.length ≤ b.next := by
    obtain ⟨w, hw⟩ := List.exists_mem_of_ne_nil _ hsome
    have hsound := g.workers w hw
    rw [hdone w hw] at hsound
    apply hsound.resolve_left
    rw [hok]
    decide
  refine ⟨fun l hl hfails => hfine (g.lookups l hl hfails), ?_⟩
  intro index hindex
  rcases g.claimed index (hindex.trans_le hnext) hindex with hfilled | hfail | ⟨w, hw, hheld⟩
  · exact hfilled
  · exact absurd hfail hfine
  · rw [hdone w hw] at hheld
    cases hheld

theorem Good.outcome (g : b.Good) (hsome : b.workers ≠ []) (hdone : ∀ w ∈ b.workers, w = .done)
    (cancelled : Bool) (now : UInt64) :
    (Caller.returned (b.outcome cancelled now)).Sound b := by
  unfold Batch.outcome
  cases cancelled with
  | true => trivial
  | false =>
    rw [if_neg Bool.false_ne_true]
    by_cases hfailed : Flightdeck.failed b.failure = true
    · rw [if_pos hfailed]
      trivial
    · rw [if_neg hfailed]
      by_cases hlate : b.deadline ≤ now
      · rw [if_pos hlate]
        trivial
      · rw [if_neg hlate]
        have hcomplete := g.complete hsome hdone (Bool.eq_false_iff.mpr hfailed)
        exact ⟨hdone, hcomplete.1, g.slots, hcomplete.2⟩

theorem Good.join (g : b.Good) (cancelled : Bool) (now : UInt64) : (b.join cancelled now).Good := by
  have hcaller := g.caller
  unfold Batch.join
  by_cases hall : (b.workers.all (· == .done)) = true
  · rw [if_pos hall]
    have hdone (w : Worker) (hw : w ∈ b.workers) : w = .done :=
      eq_of_beq (List.all_eq_true.mp hall w hw)
    cases hc : b.caller with
    | joining =>
      rw [hc] at hcaller
      have houtcome := g.outcome hcaller hdone cancelled now
      apply g.move (fun h => h) g.failure g.stopped
      cases hresult : b.outcome cancelled now with
      | error hr => trivial
      | ok products =>
        rw [hresult] at houtcome
        exact houtcome
    | abandoned => exact g.move (fun h => h) g.failure g.stopped trivial
    | _ => exact g
  · rw [if_neg hall]
    exact g

end Batch

/-! ## All queries of a reader -/

namespace Reader

variable {parse : Bytes → String → HResult × Product} {reader : Reader}

structure Good (reader : Reader) : Prop where
  state : reader.state.Bounded
  batches : ∀ b ∈ reader.batches, b.Good

theorem Good.edit (g : reader.Good) {f : Batch → Batch} (hf : ∀ b : Batch, b.Good → (f b).Good)
    (batch : Nat) : (reader.edit batch f).Good := by
  refine ⟨g.state, fun b hb => ?_⟩
  obtain ⟨j, hj⟩ := List.mem_iff_getElem?.mp hb
  change (reader.batches.modify batch f)[j]? = some b at hj
  rw [List.getElem?_modify] at hj
  cases hold : reader.batches[j]? with
  | none =>
    rw [hold] at hj
    cases hj
  | some old =>
    have hgood := g.batches old (List.mem_of_getElem? hold)
    rw [hold] at hj
    cases hj
    by_cases hbatch : batch = j
    · simp only [if_pos hbatch]
      exact hf old hgood
    · simp only [if_neg hbatch]
      exact hgood

/-- The first state of a query whose ids are valid. -/
theorem Good.started {ids unique : List String} (horder : InOrder ids unique) (hsome : unique ≠ [])
    (market language : String) (deadline : UInt64) (keepRaw : Bool) :
    Batch.Good { ids, unique, market, language, deadline, keepRaw,
                 products := unique.map fun _ => {},
                 caller := .spawning (min 4 unique.length) } := by
  refine ⟨horder, hsome, List.length_map _, .inl rfl, by nofun, ?_, by nofun, by nofun, ?_⟩
  · intro index h
    exact absurd h (Nat.not_lt_zero _)
  · have := List.length_pos_iff.mpr hsome
    show 0 + min 4 unique.length ≠ 0
    omega

theorem Good.next (g : reader.Good) (step : Step) : (reader.next parse step).Good := by
  cases step with
  | read ids market language deadline keepRaw cancelled start now =>
    cases hprepare : prepare ids cancelled deadline start now with
    | error hr =>
      simp only [Reader.next, hprepare]
      exact g
    | ok result =>
      simp only [Reader.next, hprepare]
      obtain ⟨horder, hsome⟩ := prepare_inOrder hprepare
      refine ⟨g.state, fun b hb => ?_⟩
      rcases List.mem_append.mp hb with hold | hnew
      · exact g.batches b hold
      · rw [List.mem_singleton.mp hnew]
        exact Good.started horder hsome ..
  | spawn batch started => exact g.edit (fun _ hb => hb.spawn started) batch
  | work batch worker r =>
    cases hbatch : reader.batches[batch]? with
    | none =>
      simp only [Reader.next, hbatch]
      exact g
    | some b =>
      have hb := g.batches b (List.mem_of_getElem? hbatch)
      cases hworker : b.workers[worker]? with
      | none =>
        simp only [Reader.next, hbatch, hworker]
        exact g
      | some w =>
        simp only [Reader.next, hbatch, hworker]
        have hturn := hb.turn parse reader.state r (hb.workers w (List.mem_of_getElem? hworker))
        refine ⟨Batch.turn_bounded g.state parse r, fun b' hb' => ?_⟩
        rcases List.mem_or_eq_of_mem_set hb' with hold | rfl
        · exact g.batches b' hold
        · by_cases hdone : w = .done
          · subst hdone
            show Batch.Good { b with workers := b.workers.set worker .done }
            obtain ⟨hlt, hget⟩ := List.getElem?_eq_some_iff.mp hworker
            rw [← hget, List.set_getElem_self]
            exact hb
          · exact hb.work hworker hdone hturn
  | watch batch cancelled => exact g.edit (fun _ hb => hb.watch cancelled) batch
  | halt batch => exact g.edit (fun _ hb => hb.halt) batch
  | join batch cancelled now => exact g.edit (fun _ hb => hb.join cancelled now) batch

theorem Reachable.run (steps : List Step) :
    Reachable parse (steps.foldl (Reader.next parse) {}) := by
  have hrun (reader : Reader) (hreader : Reachable parse reader) :
      Reachable parse (steps.foldl (Reader.next parse) reader) := by
    induction steps generalizing reader with
    | nil => exact hreader
    | cons step steps ih => exact ih _ (hreader.next step)
  exact hrun {} .start

theorem Good.of_reachable (h : Reachable parse reader) : reader.Good := by
  induction h with
  | start => exact ⟨.start, by nofun⟩
  | next step _ ih => exact ih.next step

end Reader

/-! ## The results -/

/-- A query that returns products returns those of the requested ids, each once and in the order of
the first requests, as their lookups found them, and none of its lookups failed.  The cache keeps
within its limits, its counter is exact, and nothing was ever subtracted that it did not hold. -/
theorem catalog_results {parse : Bytes → String → HResult × Product} {reader : Reader}
    (h : Reader.Reachable parse reader) :
    reader.state.Bounded ∧
      ∀ b ∈ reader.batches, ∀ products, b.caller = .returned (.ok products) →
        InOrder b.ids (products.map (·.id)) ∧ (∀ l ∈ b.lookups, ¬ l.Fails) ∧
          ∀ p ∈ products, ∃ l ∈ b.lookups, p = b.kept l.value := by
  have g := Reader.Good.of_reachable h
  refine ⟨g.state, fun b hb products hreturned => ?_⟩
  have hgood := g.batches b hb
  have hcaller := hgood.caller
  rw [hreturned] at hcaller
  obtain ⟨_, hfine, hlength, hslots⟩ := hcaller
  have hkept (value : Product) : (b.kept value).id = value.id := by
    unfold Batch.kept
    cases b.keepRaw <;> rfl
  have hids : products.map (·.id) = b.unique := by
    apply List.ext_getElem?
    intro index
    by_cases hindex : index < b.unique.length
    · obtain ⟨value, ⟨l, hl, hid, hvalue, hl'⟩, hslot⟩ := hslots index hindex
      have hsame : value.id = b.id index := by
        by_contra hne
        rw [← hvalue, ← hid] at hne
        exact hl' (.inr (.inl hne))
      rw [List.getElem?_map, hslot, Option.map_some, hkept, hsame, Batch.id,
        List.getD_eq_getElem?_getD, List.getElem?_eq_getElem hindex, Option.getD_some]
    · rw [List.getElem?_eq_none (by rw [List.length_map]; omega),
        List.getElem?_eq_none (not_lt.mp hindex)]
  refine ⟨hids ▸ hgood.order, hfine, fun p hp => ?_⟩
  obtain ⟨index, hindex⟩ := List.mem_iff_getElem?.mp hp
  have hlt : index < b.unique.length := hlength ▸ (List.getElem?_eq_some_iff.mp hindex).1
  obtain ⟨value, ⟨l, hl, _, hvalue, _⟩, hslot⟩ := hslots index hlt
  rw [hindex] at hslot
  exact ⟨l, hl, by rw [hvalue]; exact Option.some_inj.mp hslot⟩

/-- A product is asked for twice; one worker fetches it and finds no other. -/
def twiceSteps : List Step :=
  let r : Reading := ⟨1, none, S_OK, ⟨"9NXN8GF8N9HT", [123, 125]⟩⟩
  [.read ["9NXN8GF8N9HT", "9NXN8GF8N9HT"] "DE" "de-DE" 0 false false 1 1, .spawn 0 true,
    .spawn 0 true, .work 0 0 r, .work 0 0 r, .work 0 0 r, .work 0 0 r, .work 0 0 r, .work 0 0 r,
    .work 0 0 r, .work 0 0 r, .work 0 0 r, .work 0 0 r, .work 0 0 r, .work 0 0 r, .watch 0 false,
    .join 0 false 2]

def twice : Reader := twiceSteps.foldl (Reader.next fun _ _ => (E_FAIL, {})) {}

theorem twice_outcome : (twice.batches.map fun b => (b.ids, b.caller)) =
    [(["9NXN8GF8N9HT", "9NXN8GF8N9HT"], .returned (.ok [⟨"9NXN8GF8N9HT", []⟩]))] := rfl

theorem catalog_results_twice :
    twice.state.Bounded ∧ InOrder ["9NXN8GF8N9HT", "9NXN8GF8N9HT"] ["9NXN8GF8N9HT"] := by
  have h := catalog_results (@Reader.Reachable.run (fun _ _ => (E_FAIL, {})) twiceSteps)
  refine ⟨h.1, ?_⟩
  have hmem := List.mem_singleton_self (["9NXN8GF8N9HT", "9NXN8GF8N9HT"],
    Caller.returned (.ok [(⟨"9NXN8GF8N9HT", []⟩ : Product)]))
  rw [← twice_outcome] at hmem
  obtain ⟨b, hb, heq⟩ := List.mem_map.mp hmem
  have hids : b.ids = ["9NXN8GF8N9HT", "9NXN8GF8N9HT"] := congrArg Prod.fst heq
  have horder := (h.2 b hb _ (congrArg Prod.snd heq)).1
  rw [hids] at horder
  exact horder

end Flightdeck.Store.Catalog
