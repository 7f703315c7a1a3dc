import Flightdeck.Cloud.PolicyLaws
import Flightdeck.Cloud.Session
import Flightdeck.Cloud.Write
import Flightdeck.SaveState.Digest

/-!
# Digests of the containers of a state

A state has one digest for each container.  The save sets of the policy, the tables of a plan and
the entry digests of an upload are this same table, and it depends only on the canonical content.
-/

namespace Flightdeck.Cloud

open Foundation SaveState

theorem mem_toList {β : Type} {m : TextMap β} {row : String × β} :
    row ∈ m.toList ↔ m[row.1]? = some row.2 :=
  Std.ExtTreeMap.mem_toList_iff_getElem?_eq_some

/-- A loop that inserts one computed value for each row. -/
theorem foldlM_insert {ε β γ : Type} {f : String → β → Except ε γ} {rows : List (String × β)}
    (hrows : (rows.map Prod.fst).Nodup) {m m' : TextMap γ}
    (h : rows.foldlM (fun m row => do return m.insert row.1 (← f row.1 row.2)) m = .ok m')
    (name : String) :
    (∀ value, (name, value) ∈ rows → ∃ d, f name value = .ok d ∧ m'[name]? = some d) ∧
      (name ∉ rows.map Prod.fst → m'[name]? = m[name]?) := by
  induction rows generalizing m with
  | nil =>
    cases h
    exact ⟨nofun, fun _ => rfl⟩
  | cons row rows ih =>
    rw [List.map_cons, List.nodup_cons] at hrows
    rw [List.foldlM_cons, bind_eq_ok] at h
    obtain ⟨m₁, hm₁, hrest⟩ := h
    obtain ⟨d, hd, hm₁⟩ := bind_eq_ok.mp hm₁
    cases hm₁
    have hih := ih hrows.2 hrest
    constructor
    · intro value hvalue
      rcases List.mem_cons.mp hvalue with rfl | hvalue
      · refine ⟨d, hd, ?_⟩
        rw [hih.2 hrows.1, getElem?_insert_eq, if_pos rfl]
      · exact hih.1 value hvalue
    · intro hname
      rw [List.map_cons, List.mem_cons, not_or] at hname
      rw [hih.2 hname.2, getElem?_insert_eq, if_neg (Ne.symm hname.1)]

/-- A loop of computations that all succeed. -/
theorem foldlM_insert_ok {ε β γ : Type} {f : String → β → Except ε γ} {rows : List (String × β)}
    (h : ∀ row ∈ rows, ∃ d, f row.1 row.2 = .ok d) (m : TextMap γ) :
    ∃ m', rows.foldlM (fun m row => do return m.insert row.1 (← f row.1 row.2)) m = .ok m' := by
  induction rows generalizing m with
  | nil => exact ⟨m, rfl⟩
  | cons row rows ih =>
    obtain ⟨d, hd⟩ := h row List.mem_cons_self
    obtain ⟨m', hm'⟩ := ih (fun row hrow => h row (List.mem_cons_of_mem _ hrow)) (m.insert row.1 d)
    refine ⟨m', ?_⟩
    rw [List.foldlM_cons, hd]
    exact hm'

variable [Sha256]

theorem entryDigest_none {name : String} {d : Option String} :
    Write.entryDigest name none = .ok d ↔ d = none := by
  rw [Write.entryDigest, Except.ok.injEq, eq_comm]

theorem entryDigest_some {name : String} {entry : Container} {d : Option String} :
    Write.entryDigest name (some entry) = .ok d ↔
      ∃ digest, Import.digest (single name entry) = .ok digest ∧ d = some digest := by
  unfold Write.entryDigest
  cases hd : Import.digest (single name entry) with
  | error e => simp [hd]
  | ok digest => simp [hd, eq_comm]

/-- `m` holds the digest of every container of `s`, and nothing else. -/
def Digests (s : State) (m : TextMap String) : Prop :=
  ∀ name : String, Write.entryDigest name s.containers[name]? = .ok m[name]?

theorem Digests.unique {s : State} {m m' : TextMap String} (h : Digests s m)
    (h' : Digests s m') : m = m' := by
  apply Std.ExtTreeMap.ext_getElem?
  intro name
  exact Except.ok.inj ((h name).symm.trans (h' name))

theorem Digests.congr {s t : State} {m : TextMap String} (h : Digests s m)
    (hcontainers : s.containers = t.containers) : Digests t m := by
  intro name
  rw [← hcontainers]
  exact h name

theorem digests_of_fold {ε : Type} {f : String → Container → Except ε String} {s : State}
    {m : TextMap String}
    (hf : ∀ name entry d, f name entry = .ok d → Import.digest (single name entry) = .ok d)
    (h : s.containers.toList.foldlM
      (fun (m : TextMap String) row => do return m.insert row.1 (← f row.1 row.2)) ∅ = .ok m) :
    Digests s m := by
  intro name
  have hname := foldlM_insert (nodup_keys_toList s.containers) h name
  cases hentry : s.containers[name]? with
  | none =>
    have hnot : name ∉ s.containers.toList.map Prod.fst := by
      rw [Std.ExtTreeMap.map_fst_toList_eq_keys, Std.ExtTreeMap.mem_keys,
        Std.ExtTreeMap.mem_iff_isSome_getElem?, hentry]
      exact Bool.false_ne_true
    rw [hname.2 hnot, entryDigest_none]
    simp
  | some entry =>
    obtain ⟨d, hd, hm⟩ := hname.1 entry (mem_toList.mpr hentry)
    rw [hm, entryDigest_some]
    exact ⟨d, hf name entry d hd, rfl⟩

theorem digests_fromState {binding : String} {s : State} {set : SaveSet}
    (h : SaveSet.fromState binding s = .ok set) :
    set.binding = binding ∧ Digests s set.containers := by
  obtain ⟨_, -, h⟩ := bind_eq_ok.mp h
  obtain ⟨m, hm, hset⟩ := bind_eq_ok.mp h
  obtain ⟨hbinding, hcontainers⟩ := SaveSet.of_new hset
  rw [hbinding, hcontainers]
  exact ⟨rfl, digests_of_fold (fun _ _ _ hd => mapError_eq_ok.mpr hd) hm⟩

/-! ## States that `encode` accepts -/

theorem single_digest {s : State} (h : Encodable s) {row : String × Container}
    (hrow : row ∈ s.containers.toList) : ∃ d, contentDigest (single row.1 row.2) = .ok d :=
  contentDigest_of_encodable (h.single (mem_toList.mp hrow))

theorem digest_of_encodable {s : State} (h : Encodable s) : ∃ d, Import.digest s = .ok d := by
  obtain ⟨d, hd⟩ := contentDigest_of_encodable h
  exact ⟨d, mapError_eq_ok.mpr hd⟩

theorem containers_of_encodable {s : State} (h : Encodable s) :
    ∃ m, Import.containers s = .ok m := by
  refine foldlM_insert_ok (f := fun key entry => Import.digest (single key entry))
    (fun row hrow => ?_) ∅
  obtain ⟨d, hd⟩ := single_digest h hrow
  exact ⟨d, mapError_eq_ok.mpr hd⟩

theorem contentDigest_hex {s : State} {d : String} (h : contentDigest s = .ok d) :
    hexDigest d = true := by
  obtain ⟨data, -, hd⟩ := bind_eq_ok.mp h
  cases hd
  exact hexDigest_sha256 data

theorem Digests.isSome {s : State} {m : TextMap String} (h : Digests s m) (name : String) :
    m[name]?.isSome = s.containers[name]?.isSome := by
  have hname := h name
  cases hentry : s.containers[name]? with
  | none =>
    rw [hentry, entryDigest_none] at hname
    rw [hname]
    rfl
  | some entry =>
    rw [hentry, entryDigest_some] at hname
    obtain ⟨d, -, hd⟩ := hname
    rw [hd]
    rfl

theorem Digests.size {s : State} {m : TextMap String} (h : Digests s m) :
    m.size = s.containers.size := by
  have hkeys : m.keys.Perm s.containers.keys := by
    refine (List.perm_ext_iff_of_nodup Std.ExtTreeMap.nodup_keys Std.ExtTreeMap.nodup_keys).mpr ?_
    intro name
    rw [Std.ExtTreeMap.mem_keys, Std.ExtTreeMap.mem_keys, Std.ExtTreeMap.mem_iff_isSome_getElem?,
      Std.ExtTreeMap.mem_iff_isSome_getElem?, h.isSome]
  rw [← Std.ExtTreeMap.length_keys, hkeys.length_eq, Std.ExtTreeMap.length_keys]

omit [Sha256] in
theorem canonical_single (name : String) (entry : Container) :
    canonical (single name entry) = single name { entry with modified := 0 } := by
  have hmap : (single name entry).containers.map (fun _ (e : Container) => { e with modified := 0 })
      = (single name { entry with modified := 0 }).containers := by
    apply Std.ExtTreeMap.ext_getElem?
    intro key
    rw [Std.ExtTreeMap.getElem?_map]
    simp only [single, getElem?_insert_eq]
    split_ifs <;> simp
  rw [canonical, hmap]
  rfl

theorem Digests.of_canonical {s t : State} {m : TextMap String} (h : Digests s m)
    (heq : canonical s = canonical t) : Digests t m := by
  intro name
  have hentry : s.containers[name]?.map (fun e => { e with modified := 0 }) =
      t.containers[name]?.map fun e => { e with modified := 0 } := by
    have hmap := congrArg (fun u => u.containers[name]?) heq
    simpa only [canonical, Std.ExtTreeMap.getElem?_map] using hmap
  have hname := h name
  cases hs : s.containers[name]? with
  | none =>
    rw [hs] at hentry hname
    cases ht : t.containers[name]? with
    | none => exact hname
    | some b =>
      rw [ht] at hentry
      cases hentry
  | some a =>
    rw [hs] at hentry hname
    cases ht : t.containers[name]? with
    | none =>
      rw [ht] at hentry
      cases hentry
    | some b =>
      rw [ht] at hentry
      have hab : ({ a with modified := 0 } : Container) = { b with modified := 0 } :=
        Option.some.inj hentry
      have hdigest : Import.digest (single name a) = Import.digest (single name b) := by
        simp only [Import.digest, contentDigest, canonical_single]
        rw [hab]
      rw [entryDigest_some] at hname ⊢
      rw [← hdigest]
      exact hname

end Flightdeck.Cloud
