import Flightdeck.Bootstrap.Extract
import Flightdeck.Foundation.Outcome

/-!
# Confinement

What an archive can do to the tree.  `safe_link` counts the components of names, and a link on the
way makes the directory that a link stands in, or the one that a name leads to, another than the
count says; where no link is on the way, the count is right, and the extracted tree is confined.
-/

namespace Flightdeck.Bootstrap

open Foundation

/-! ## What is promised -/

/-- Nothing that is reached through the links of the tree lies outside the destination. -/
structure Closed (base : List String) (w : World) : Prop where
  links : ∀ dir n target, base <+: dir → w (dir ++ [n]) = some (.link target) →
    ∀ fuel q, walk w fuel dir target = some q → base <+: q
  readers : ∀ path : Path, Downward path → ∀ fuel q, walk w fuel base path = some q → base <+: q
  files : ∀ p q number, base <+: p → ¬ base <+: q → w p = some (.file number) →
    w q ≠ some (.file number)

/-- No step upwards after a name. -/
def UpFirst : Path → Prop
  | [] => True
  | .current :: rest => UpFirst rest
  | .parent :: rest => UpFirst rest
  | .name _ :: rest => Downward rest
  | .root :: _ => False

/-- No link stands on the way to an entry. -/
def Plain (base : List String) (w : World) (path : Path) : Prop :=
  ∀ first, first <+: path.dropLast → ∀ target, w (base ++ names first) ≠ some (.link target)

/-- The lexical count of a step is the real one: a link that goes upwards does so before any name,
and stands where its path says; and a hard link names something inside, and if that is a link that
goes upwards, it may stand at the new place as well. -/
structure Counted (base : List String) (w : World) (entry : Entry) : Prop where
  symlink : ∀ path target, entry.kind = .symlink → entry.path = .ok path →
    entry.linkName = .ok (some target) → .parent ∈ target → UpFirst target ∧ Plain base w path
  hardLink : ∀ path target w' dir n, entry.kind = .hardLink → entry.path = .ok path →
    entry.linkName = .ok (some target) → Grown base w w' → Place base w' target dir n →
    base <+: dir ∧ ∀ far, w' (dir ++ [n]) = some (.link far) → .parent ∈ far →
      safeLink path far false = true ∧ UpFirst far ∧ Plain base w path

/-- Every step of the extraction is counted rightly. -/
def Orderly (unpackIn : UnpackIn) (base : List String) :
    World → List (Except Error Entry) → Prop
  | _, [] => True
  | _, .error _ :: _ => True
  | w, .ok entry :: entries =>
    Counted base w entry ∧ Orderly unpackIn base (stateOf (unpackIn entry w)) entries

variable {base dir : List String} {n : String} {w w' : World} {entry : Entry} {path target : Path}

/-! ## Counting -/

theorem depth_eq (path : Path) : depth path = (names path.dropLast).length := by
  unfold depth
  induction path.dropLast with
  | nil => rfl
  | cons part rest ih =>
    cases part with
    | name n =>
      rw [List.countP_cons_of_pos (by rfl), ih]
      rfl
    | root =>
      rw [List.countP_cons_of_neg (by simp), ih]
      rfl
    | parent =>
      rw [List.countP_cons_of_neg (by simp), ih]
      rfl
    | current =>
      rw [List.countP_cons_of_neg (by simp), ih]
      rfl

theorem downward_of_count {d : Nat} (h : countParts d target = true)
    (hparent : Component.parent ∉ target) : Downward target := by
  induction target generalizing d with
  | nil => trivial
  | cons part rest ih =>
    have hrest : Component.parent ∉ rest := fun hmem => hparent (List.mem_cons_of_mem _ hmem)
    cases part with
    | root => cases h
    | parent => exact absurd List.mem_cons_self hparent
    | current => exact ih h hrest
    | name n => exact ih h hrest

theorem downward_of_archivePath (h : archivePath path = true) : Downward path := by
  unfold archivePath at h
  rw [Bool.and_eq_true] at h
  obtain ⟨-, hall⟩ := h
  induction path with
  | nil => trivial
  | cons part rest ih =>
    rw [List.all_cons, Bool.and_eq_true] at hall
    cases part with
    | root => cases hall.1
    | parent => cases hall.1
    | current => exact ih hall.2
    | name n => exact ih hall.2

/-- The count of `safe_link` is what a link stays within. -/
theorem stays_of_count {d : Nat} (h : countParts d target = true) (hup : UpFirst target) :
    Stays d target := by
  induction target generalizing d with
  | nil => trivial
  | cons part rest ih =>
    cases part with
    | root => exact hup.elim
    | current => exact ih h hup
    | name n => exact hup
    | parent =>
      change (d != 0 && countParts (d - 1) rest) = true at h
      rw [Bool.and_eq_true, bne_iff_ne] at h
      obtain ⟨d, rfl⟩ := Nat.exists_eq_succ_of_ne_zero h.1
      exact ih h.2 hup

/-! ## The tree while it grows -/

/-- Only directories are added. -/
theorem Grown.back (h : Grown base w w') {p : List String} {node : Node String Nat}
    (hp : w' p = some node) (hnode : node ≠ .dir) : w p = some node := by
  induction h with
  | refl => exact hp
  | @mkdir w' dir n _ hinside hfree ih =>
    by_cases heq : p = dir ++ [n]
    · subst heq
      rw [Function.update_self] at hp
      exact absurd (Option.some.inj hp).symm hnode
    · rw [Function.update_of_ne heq] at hp
      exact ih hp

theorem not_prefix_append (hinside : base <+: dir) {p : List String}
    (hp : ¬ base <+: p ∨ p = base) : p ≠ dir ++ [n] := by
  intro heq
  subst heq
  obtain h | h := hp
  · exact h (hinside.trans (List.prefix_append dir [n]))
  · have hlength := hinside.length_le
    rw [← h, List.length_append, List.length_singleton] at hlength
    omega

theorem Grown.outside (h : Grown base w w') {p : List String} (hp : ¬ base <+: p ∨ p = base) :
    w' p = w p := by
  induction h with
  | refl => rfl
  | mkdir _ hinside hfree ih => rw [Function.update_of_ne (not_prefix_append hinside hp), ih]

/-- Whatever the archive is, nothing outside changes. -/
theorem Unpacked.outside (h : Unpacked base entry w w') {p : List String}
    (hp : ¬ base <+: p ∨ p = base) : w' p = w p := by
  cases h with
  | stopped hgrown => exact hgrown.outside hp
  | removed hgrown _ _ hinside _ =>
    rw [Function.update_of_ne (not_prefix_append hinside hp), hgrown.outside hp]
  | placed hgrown _ _ hinside _ _ =>
    rw [Function.update_of_ne (not_prefix_append hinside hp), hgrown.outside hp]

/-! ## The invariant of the loop -/

structure Inv (base : List String) (w : World) : Prop where
  confined : Confined base w
  files : ∀ p q number, base <+: p → ¬ base <+: q → w p = some (.file number) →
    w q ≠ some (.file number)

theorem Inv.grown (h : Inv base w) (hgrown : Grown base w w') : Inv base w' := by
  constructor
  · intro dir n target hdir hlink
    exact h.confined dir n target hdir (hgrown.back hlink nofun)
  · intro p q number hp hq hfile
    rw [hgrown.outside (.inl hq)]
    exact h.files p q number hp hq (hgrown.back hfile nofun)

theorem Plain.grown (h : Plain base w path) (hgrown : Grown base w w') : Plain base w' path := by
  intro first hfirst target hlink
  exact h first hfirst target (hgrown.back hlink nofun)

theorem Inv.removed (h : Inv base w) (p : List String) : Inv base (Function.update w p none) := by
  constructor
  · intro dir n target hdir hlink
    by_cases heq : dir ++ [n] = p
    · rw [heq, Function.update_self] at hlink
      cases hlink
    · rw [Function.update_of_ne heq] at hlink
      exact h.confined dir n target hdir hlink
  · intro p' q number hp hq hfile
    by_cases heq : p' = p
    · rw [heq, Function.update_self] at hfile
      cases hfile
    · rw [Function.update_of_ne heq] at hfile
      by_cases hother : q = p
      · rw [hother, Function.update_self]
        exact nofun
      · rw [Function.update_of_ne hother]
        exact h.files p' q number hp hq hfile

/-- An entry is put into the tree. -/
theorem Inv.placed (h : Inv base w) (hinside : base <+: dir) {node : Node String Nat}
    (hlink : ∀ target, node = .link target → Stays (dir.length - base.length) target)
    (hfile : ∀ number, node = .file number → ∀ q, ¬ base <+: q → w q ≠ some (.file number)) :
    Inv base (Function.update w (dir ++ [n]) (some node)) := by
  constructor
  · intro dir' n' target hdir hat
    by_cases heq : dir' ++ [n'] = dir ++ [n]
    · obtain ⟨rfl, -⟩ := List.append_inj' heq rfl
      rw [heq, Function.update_self, Option.some.injEq] at hat
      exact hlink target hat
    · rw [Function.update_of_ne heq] at hat
      exact h.confined dir' n' target hdir hat
  · intro p q number hp hq hat
    rw [Function.update_of_ne (not_prefix_append hinside (.inl hq))]
    by_cases heq : p = dir ++ [n]
    · rw [heq, Function.update_self, Option.some.injEq] at hat
      exact hfile number hat q hq
    · rw [Function.update_of_ne heq] at hat
      exact h.files p q number hp hq hat

/-! ## Links that may stand in a place -/

/-- With no link on its way, an entry stands as deep as its path says. -/
theorem Place.depth (h : Place base w path dir n) (hpath : archivePath path = true)
    (hplain : Plain base w path) : dir.length - base.length = depth path := by
  obtain ⟨fuel, hwalk⟩ := h.walk
  have hdir := walk_plain (downward_of_archivePath hpath).dropLast hplain hwalk
  rw [hdir, depth_eq, List.length_append, Nat.add_sub_cancel_left]

theorem Place.stays (h : Place base w path dir n) (hpath : archivePath path = true)
    (hsafe : safeLink path target false = true)
    (hcounted : Component.parent ∈ target → UpFirst target ∧ Plain base w path) :
    Stays (dir.length - base.length) target := by
  unfold safeLink at hsafe
  rw [Bool.and_eq_true] at hsafe
  by_cases hparent : Component.parent ∈ target
  · obtain ⟨hup, hplain⟩ := hcounted hparent
    rw [h.depth hpath hplain]
    exact stays_of_count hsafe.2 hup
  · exact (downward_of_count hsafe.2 hparent).stays _

theorem require_eq_ok {condition : Bool} {message : String} {u : Unit} :
    require condition message = .ok u ↔ condition = true := by
  cases condition <;> simp [require]

/-- What the checks of an entry promise. -/
theorem checkEntry_eq_ok {total total' : Nat} (h : checkEntry total entry = .ok total') :
    ∃ path, entry.path = .ok path ∧ archivePath path = true ∧
      (entry.kind = .symlink → ∀ target, entry.linkName = .ok (some target) →
        safeLink path target false = true) := by
  simp only [checkEntry, bind_eq_ok, require_eq_ok] at h
  obtain ⟨path, hpath, _, harchive, _, _, _, _, _, _, _, hlink, -⟩ := h
  refine ⟨path, hpath, harchive, ?_⟩
  intro hkind target htarget
  unfold checkLink at hlink
  rw [if_pos (.inl hkind), htarget] at hlink
  have hsafe := require_eq_ok.mp hlink
  rw [hkind] at hsafe
  exact hsafe

/-- One entry, counted rightly. -/
theorem Inv.unpacked {total total' : Nat} (h : Inv base w)
    (hchecked : checkEntry total entry = .ok total') (hcounted : Counted base w entry)
    (hunpacked : Unpacked base entry w w') : Inv base w' := by
  obtain ⟨path, hpath, harchive, hsafe⟩ := checkEntry_eq_ok hchecked
  cases hunpacked with
  | stopped hgrown => exact h.grown hgrown
  | removed hgrown _ _ _ _ => exact (h.grown hgrown).removed _
  | placed hgrown hname hplace hinside hold hcontent =>
    rename_i w₁ path' dir n node
    have hsame : path' = path := by
      rw [hpath] at hname
      exact (Except.ok.inj hname).symm
    subst hsame
    have hgrew := h.grown hgrown
    apply hgrew.placed hinside
    · intro target hlink
      subst hlink
      cases hcontent with
      | symlink hkind htarget =>
        apply hplace.stays harchive (hsafe hkind target htarget)
        intro hparent
        obtain ⟨hup, hplain⟩ := hcounted.symlink _ target hkind hpath htarget hparent
        exact ⟨hup, hplain.grown hgrown⟩
      | hardLink hkind htarget hsource hnode hnodir =>
        obtain ⟨hin, hfar⟩ := hcounted.hardLink _ _ _ _ _ hkind hpath htarget hgrown hsource
        by_cases hparent : Component.parent ∈ target
        · obtain ⟨hsafe, hup, hplain⟩ := hfar target hnode hparent
          exact hplace.stays harchive hsafe fun _ => ⟨hup, hplain.grown hgrown⟩
        · exact ((hgrew.confined _ _ target hin hnode).downward hparent).stays _
    · intro number hfile q hq
      subst hfile
      cases hcontent with
      | file _ hfresh => exact hfresh q
      | hardLink hkind htarget hsource hnode hnodir =>
        obtain ⟨hin, -⟩ := hcounted.hardLink _ _ _ _ _ hkind hpath htarget hgrown hsource
        exact hgrew.files _ q number (hin.trans (List.prefix_append _ _)) hq hnode

/-! ## The loop -/

section Loop

variable {unpackIn : UnpackIn} {cancelled : Nat → Bool}

/-- An entry is refused, or it is unpacked. -/
theorem extractEntry_cases (unpackIn : UnpackIn) (cancelled : Nat → Bool) (count total : Nat)
    (item : Except Error Entry) (w : World) :
    (∃ e, extractEntry unpackIn cancelled count total item w = .error e w) ∨
      ∃ entry total', item = .ok entry ∧ checkEntry total entry = .ok total' ∧
        ((∃ e, extractEntry unpackIn cancelled count total item w =
          .error e (stateOf (unpackIn entry w))) ∨
        extractEntry unpackIn cancelled count total item w =
          .ok total' (stateOf (unpackIn entry w))) := by
  unfold extractEntry
  cases hcancel : cancelled count with
  | true => exact .inl ⟨.cancelled, rfl⟩
  | false =>
    cases hcount : require (count < 30000) TOO_MANY with
    | error e => exact .inl ⟨e, rfl⟩
    | ok u =>
      cases item with
      | error e => exact .inl ⟨e, rfl⟩
      | ok entry =>
        cases hchecked : checkEntry total entry with
        | error e =>
          simp only [Bool.false_eq_true, ↓reduceIte, lift_ok_bind, hchecked]
          exact .inl ⟨e, rfl⟩
        | ok total' =>
          simp only [Bool.false_eq_true, ↓reduceIte, lift_ok_bind, hchecked]
          refine .inr ⟨entry, total', rfl, hchecked, ?_⟩
          cases hunpack : unpackIn entry w with
          | error e w' =>
            apply Or.inl
            simp only [bind, EStateM.bind, hunpack]
            exact ⟨e, rfl⟩
          | ok unpacked w' =>
            rw [run_bind hunpack]
            cases unpacked with
            | true => exact .inr rfl
            | false => exact .inl ⟨_, rfl⟩

/-- What every unpacked entry keeps, the extraction keeps. -/
theorem extractEntries_keeps {P : World → Prop} {Q : World → List (Except Error Entry) → Prop}
    (hstep : ∀ w entry rest total total', P w → Q w (.ok entry :: rest) →
      checkEntry total entry = .ok total' →
      P (stateOf (unpackIn entry w)) ∧ Q (stateOf (unpackIn entry w)) rest)
    (entries : List (Except Error Entry)) {count total : Nat} (hP : P w) (hQ : Q w entries) :
    P (stateOf (extractEntries unpackIn cancelled count total entries w)) := by
  induction entries generalizing w count total with
  | nil => exact hP
  | cons item rest ih =>
    rw [extractEntries]
    obtain ⟨e, hend⟩ | ⟨entry, total', rfl, hchecked, hend⟩ :=
      extractEntry_cases unpackIn cancelled count total item w
    · change P (stateOf (EStateM.bind _ _ w))
      unfold EStateM.bind
      rw [hend]
      exact hP
    · obtain ⟨hP', hQ'⟩ := hstep w entry rest total total' hP hQ hchecked
      change P (stateOf (EStateM.bind _ _ w))
      unfold EStateM.bind
      obtain ⟨e, hend⟩ | hend := hend
      · rw [hend]
        exact hP'
      · rw [hend]
        exact ih hP' hQ'

end Loop

/-! ## Confinement -/

theorem Inv.closed (h : Inv base w) : Closed base w := by
  constructor
  · intro dir n target hdir hlink fuel q hwalk
    exact h.confined.walk hdir (h.confined dir n target hdir hlink) hwalk
  · intro path hdown fuel q hwalk
    exact h.confined.walk List.prefix_rfl (hdown.stays _) hwalk
  · exact h.files

/-- Nothing is below the destination yet. -/
def Empty (base : List String) (w : World) : Prop := ∀ dir n, base <+: dir → w (dir ++ [n]) = none

theorem Empty.inv (h : Empty base w) (hbase : w base = some .dir) : Inv base w := by
  constructor
  · intro dir n target hdir hlink
    rw [h dir n hdir] at hlink
    cases hlink
  · intro p q number hp hq hfile
    exfalso
    by_cases hlength : base.length < p.length
    · have hne : p ≠ [] := List.ne_nil_of_length_pos (Nat.zero_lt_of_lt hlength)
      have hnone := h p.dropLast (p.getLast hne) (prefix_dropLast hp hlength)
      rw [List.dropLast_append_getLast hne, hfile] at hnone
      cases hnone
    · have heq : base = p := hp.eq_of_length_le (Nat.le_of_not_lt hlength)
      rw [← heq, hbase] at hfile
      cases hfile

/-- The extraction is its loop, or does nothing. -/
theorem extractReader_cases (unpackIn : UnpackIn) (cancelled : Nat → Bool)
    (directory : Except Error Unit) (entries : Except Error (List (Except Error Entry)))
    (w : World) :
    stateOf (extractReader unpackIn cancelled directory entries w) = w ∨
      ∃ rows, entries = .ok rows ∧
        stateOf (extractReader unpackIn cancelled directory entries w) =
          stateOf (extractEntries unpackIn cancelled 0 0 rows w) := by
  cases directory with
  | error e => exact .inl rfl
  | ok u =>
    cases entries with
    | error e => exact .inl rfl
    | ok rows => exact .inr ⟨rows, rfl, rfl⟩

/-! ## The library on small archives -/

/-- The directories of a path are created where they are missing. -/
def makeDirs (w : World) : List String → List String → World
  | _, [] => w
  | place, n :: rest =>
    match w (place ++ [n]) with
    | none => makeDirs (Function.update w (place ++ [n]) (some .dir)) (place ++ [n]) rest
    | some .dir => makeDirs w (place ++ [n]) rest
    | some _ => w

theorem makeDirs_grown (w w' : World) (place : List String) (hgrown : Grown base w w')
    (hplace : base <+: place) (rest : List String) : Grown base w (makeDirs w' place rest) := by
  induction rest generalizing place w' with
  | nil => exact hgrown
  | cons n rest ih =>
    have hbelow : base <+: place ++ [n] := hplace.trans (List.prefix_append place [n])
    rw [makeDirs]
    cases hnode : w' (place ++ [n]) with
    | none => exact ih _ _ (hgrown.mkdir hplace hnode) hbelow
    | some node =>
      cases node with
      | dir => exact ih _ _ hgrown hbelow
      | file number => exact hgrown
      | link target => exact hgrown

/-- A symbolic link is put into the tree, if its name is free. -/
def placeLink (base dir : List String) (n : String) (target : Path) : EStateM Error World Bool :=
  fun w =>
    if base.isPrefixOf dir then
      match w (dir ++ [n]) with
      | none => .ok true (Function.update w (dir ++ [n]) (some (.link target)))
      | some _ => .error .io w
    else .ok false w

/-- `unpack_in` on archives of symbolic links, each under a new name. -/
def unpackLinks (base : List String) : UnpackIn := fun entry w =>
  match entry.kind, entry.path, entry.linkName with
  | .symlink, .ok path, .ok (some target) =>
    let w' := makeDirs w base (names path.dropLast)
    match walk w' 100 base path.dropLast, path.getLast? with
    | some dir, some (.name n) => placeLink base dir n target w'
    | _, _ => .error .io w'
  | _, _, _ => .error .io w

theorem unpackLinks_unpacked (base : List String) (entry : Entry) (w : World) :
    Unpacked base entry w (stateOf (unpackLinks base entry w)) := by
  have hsame : Unpacked base entry w w := .stopped (.refl w)
  unfold unpackLinks
  cases hkind : entry.kind with
  | file => exact hsame
  | dir => exact hsame
  | hardLink => exact hsame
  | other => exact hsame
  | symlink =>
    cases hpath : entry.path with
    | error e => exact hsame
    | ok path =>
      cases hname : entry.linkName with
      | error e => exact hsame
      | ok link =>
        cases link with
        | none => exact hsame
        | some target =>
          have hgrown : Grown base w (makeDirs w base (names path.dropLast)) :=
            makeDirs_grown w w base (.refl w) List.prefix_rfl _
          have hstopped : Unpacked base entry w (makeDirs w base (names path.dropLast)) :=
            .stopped hgrown
          dsimp only
          cases hwalk : walk (makeDirs w base (names path.dropLast)) 100 base path.dropLast with
          | none => exact hstopped
          | some dir =>
            cases hlast : path.getLast? with
            | none => exact hstopped
            | some part =>
              cases part with
              | root => exact hstopped
              | current => exact hstopped
              | parent => exact hstopped
              | name n =>
                dsimp only
                unfold placeLink
                by_cases hinside : base.isPrefixOf dir = true
                · rw [if_pos hinside]
                  cases hold : makeDirs w base (names path.dropLast) (dir ++ [n]) with
                  | some node => exact hstopped
                  | none =>
                    apply Unpacked.placed hgrown hpath ⟨⟨100, hwalk⟩, hlast⟩
                    · exact List.isPrefixOf_iff_prefix.mp hinside
                    · rw [hold]
                      exact nofun
                    · exact .symlink hkind hname
                · rw [if_neg hinside]
                  exact hstopped

def archiveLink (path target : Path) : Except Error Entry :=
  .ok { path := .ok path, size := 0, kind := .symlink, linkName := .ok (some target) }

/-- A tree with an empty private directory. -/
def emptyWorld : World := fun p => if p = ["private"] then some .dir else none

theorem emptyWorld_plain (p : List String) (target : Path) :
    emptyWorld p ≠ some (.link target) := by
  unfold emptyWorld
  by_cases hp : p = ["private"]
  · rw [if_pos hp]
    exact nofun
  · rw [if_neg hp]
    exact nofun

theorem emptyWorld_empty : Empty ["private"] emptyWorld := by
  intro dir n hdir
  unfold emptyWorld
  rw [if_neg]
  intro heq
  have hlength := hdir.length_le
  have hone := congrArg List.length heq
  rw [List.length_append, List.length_singleton] at hone
  change dir.length + 1 = 1 at hone
  change 1 ≤ dir.length at hlength
  omega

/-- Whatever the archive is, nothing outside the destination changes; and where every step is
counted rightly, nothing that is reached through the extracted links lies outside. -/
theorem extract_confined (unpackIn : UnpackIn) (cancelled : Nat → Bool) (base : List String)
    (w : World) (directory : Except Error Unit) (entries : Except Error (List (Except Error Entry)))
    (htar : ∀ entry w, Unpacked base entry w (stateOf (unpackIn entry w)))
    (hempty : Empty base w) (hbase : w base = some .dir) :
    (∀ p, ¬ base <+: p ∨ p = base →
      stateOf (extractReader unpackIn cancelled directory entries w) p = w p) ∧
    ((∀ rows, entries = .ok rows → Orderly unpackIn base w rows) →
      Closed base (stateOf (extractReader unpackIn cancelled directory entries w))) := by
  have hinv : Inv base w := hempty.inv hbase
  obtain heq | ⟨rows, rfl, heq⟩ := extractReader_cases unpackIn cancelled directory entries w
  · rw [heq]
    exact ⟨fun _ _ => rfl, fun _ => hinv.closed⟩
  · rw [heq]
    apply And.intro
    · intro p hp
      apply extractEntries_keeps (P := fun w' => w' p = w p) (Q := fun _ _ => True)
      · intro w' entry rest total total' hsame _ _
        exact ⟨((htar entry w').outside hp).trans hsame, trivial⟩
      · rfl
      · trivial
    · intro horderly
      apply Inv.closed
      apply extractEntries_keeps (P := Inv base) (Q := Orderly unpackIn base)
      · intro w' entry rest total total' hinv hcounted hchecked
        exact ⟨hinv.unpacked hchecked hcounted.1 (htar entry w'), hcounted.2⟩
      · exact hinv
      · exact horderly rows rfl

/-- `folder/link -> ../file` -/
def innerLink : List (Except Error Entry) :=
  [archiveLink [.name "folder", .name "link"] [.parent, .name "file"]]

theorem innerLink_orderly : Orderly (unpackLinks ["private"]) ["private"] emptyWorld innerLink := by
  refine ⟨⟨?_, ?_⟩, trivial⟩
  · intro path target _ hpath htarget _
    cases hpath
    cases htarget
    exact ⟨trivial, fun first _ target => emptyWorld_plain _ target⟩
  · intro path target w' dir n hkind
    cases hkind

theorem extract_confined_inner :
    succeeded (extractReader (unpackLinks ["private"]) (fun _ => false) (.ok ()) (.ok innerLink)
      emptyWorld) = true ∧
    Closed ["private"] (stateOf (extractReader (unpackLinks ["private"]) (fun _ => false) (.ok ())
      (.ok innerLink) emptyWorld)) := by
  apply And.intro
  · decide +kernel
  · apply (extract_confined (unpackLinks ["private"]) (fun _ => false) ["private"] emptyWorld
      (.ok ()) (.ok innerLink) (unpackLinks_unpacked ["private"]) emptyWorld_empty rfl).2
    intro rows hrows
    cases hrows
    exact innerLink_orderly

/-- `a/b -> ..`, and a link that is put into that: `a/b/s -> ../../x` -/
def outerLink : List (Except Error Entry) :=
  [archiveLink [.name "a", .name "b"] [.parent],
    archiveLink [.name "a", .name "b", .name "s"] [.parent, .parent, .name "x"]]

/-- An archive that is extracted with success leaves a link that leads out. -/
theorem extract_escapes :
    ¬ ∀ (unpackIn : UnpackIn) (cancelled : Nat → Bool) (base : List String) (w : World)
        (directory : Except Error Unit) (entries : Except Error (List (Except Error Entry))),
      (∀ entry w, Unpacked base entry w (stateOf (unpackIn entry w))) → Empty base w →
      w base = some .dir →
      (∀ p, ¬ base <+: p ∨ p = base →
        stateOf (extractReader unpackIn cancelled directory entries w) p = w p) ∧
      (succeeded (extractReader unpackIn cancelled directory entries w) = true →
        Closed base (stateOf (extractReader unpackIn cancelled directory entries w))) := by
  intro h
  have hclosed := (h (unpackLinks ["private"]) (fun _ => false) ["private"] emptyWorld (.ok ())
    (.ok outerLink) (unpackLinks_unpacked ["private"]) emptyWorld_empty rfl).2 (by decide +kernel)
  have hlink := hclosed.links ["private"] "s" [.parent, .parent, .name "x"] List.prefix_rfl
    (by decide +kernel) 3 ["x"] (by decide +kernel)
  exact absurd hlink (by decide)

end Flightdeck.Bootstrap
