import Flightdeck.Installations.Discovery

/-!
# Stable identities

A game that is found again keeps its id, and no two installations share one, exactly when no entry of
the registry is in the way: an older one that lost its manifest, one that two libraries inherit, or
one that left the library from whose path its id was made.
-/

namespace Flightdeck.Installations

open Foundation

variable {layout : Layout} {f : Found} {e : Installation}

/-! ## Entries and libraries -/

/-- The entry is of the same edition, client folder and library. -/
def Describes (e : Installation) (game : Game) (source : Source) : Prop :=
  e.game = game ∧
    match e.source, source with
    | .steam _ root library _, .steam _ root' library' _ => root = root' ∧ library = library'
    | _, _ => False

/-- The library of the entry holds the game. -/
def Holds (layout : Layout) (e : Installation) : Prop :=
  match e.source with
  | .steam _ _ library _ => ∃ name, manifest layout e.game library = .ok (some name)
  | .xbox _ => False

theorem takes_of_describes (h : Describes e f.1 f.2) : takes layout f e = true := by
  obtain ⟨id, game, source⟩ := e
  obtain ⟨game', source'⟩ := f
  obtain ⟨hgame, hsource⟩ := h
  unfold takes
  cases source with
  | xbox path => cases hsource
  | steam client root library name =>
    cases source' with
    | xbox path => cases hsource
    | steam client' root' library' name' =>
      obtain ⟨rfl, rfl⟩ := hsource
      rw [show game = game' from hgame]
      simp

theorem reachable_of_manifest {game : Game} {library : Path} {name : String}
    (h : manifest layout game library = .ok (some name)) :
    layout.reachable (manifestPath game library) = true := by
  unfold manifest at h
  dsimp only at h
  split at h
  · cases h
  · obtain ⟨doc, hdoc, _⟩ := bind_eq_ok.mp h
    exact layout.parsed hdoc

/-- An entry that is taken for another library has lost its manifest. -/
theorem not_holds_of_takes (h : takes layout f e = true) (hother : ¬ Describes e f.1 f.2) :
    ¬ Holds layout e := by
  obtain ⟨id, game, source⟩ := e
  obtain ⟨game', source'⟩ := f
  unfold takes at h
  cases source with
  | xbox path => exact fun hholds => hholds
  | steam client root library name =>
    cases source' with
    | xbox path =>
      rw [Bool.and_false] at h
      cases h
    | steam client' root' library' name' =>
      rintro ⟨found, hfound⟩
      apply hother
      simp only [Bool.and_eq_true, Bool.or_eq_true, beq_iff_eq,
        reachable_of_manifest hfound] at h
      obtain ⟨hgame, hroot, hlibrary | hlost⟩ := h
      · exact ⟨hgame, hroot, hlibrary⟩
      · cases hlost

/-! ## Ids of the registry -/

theorem validEntries_nodup {entries : List Installation} {seen : List String}
    (h : validEntries entries seen = true) :
    (entries.map Installation.id).Nodup ∧ ∀ e ∈ entries, e.id ∉ seen := by
  induction entries generalizing seen with
  | nil => exact ⟨List.nodup_nil, nofun⟩
  | cons e rest ih =>
    unfold validEntries at h
    simp only [Bool.and_eq_true, Bool.not_eq_true', List.contains_eq_mem,
      decide_eq_false_iff_not] at h
    obtain ⟨⟨⟨_, hseen⟩, _⟩, hrest⟩ := h
    obtain ⟨hnodup, hfresh⟩ := ih hrest
    constructor
    · rw [List.map_cons, List.nodup_cons]
      refine ⟨fun hmem => ?_, hnodup⟩
      obtain ⟨e', he', hsame⟩ := List.mem_map.mp hmem
      exact hfresh e' he' (hsame ▸ List.mem_cons_self)
    · intro e' he'
      rcases List.mem_cons.mp he' with rfl | he'
      · exact hseen
      · exact fun hmem => hfresh e' he' (List.mem_cons_of_mem _ hmem)

theorem validateRegistry_nodup {registry : Registry} (h : validateRegistry registry = .ok ()) :
    (registry.entries.map Installation.id).Nodup := by
  unfold validateRegistry at h
  obtain ⟨_, _, hvalid⟩ := bind_eq_ok.mp h
  obtain ⟨_, hentries, _⟩ := bind_eq_ok.mp hvalid
  exact (validEntries_nodup (require_eq_ok.mp hentries)).1

theorem entry_eq {entries : List Installation} (h : (entries.map Installation.id).Nodup)
    {e e' : Installation} (he : e ∈ entries) (he' : e' ∈ entries) (hsame : e.id = e'.id) :
    e = e' := List.inj_on_of_nodup_map h he he' hsame

/-- The entries that were not found stand after what was found. -/
theorem foldl_addEntry {entries : List Installation}
    (h : (entries.map Installation.id).Nodup) (result : List Installation) :
    entries.foldl addEntry result =
      result ++ entries.filter fun e => !result.any (·.id == e.id) := by
  induction entries generalizing result with
  | nil => exact (List.append_nil _).symm
  | cons e rest ih =>
    rw [List.map_cons, List.nodup_cons] at h
    rw [List.foldl_cons, ih h.2, List.filter_cons]
    unfold addEntry
    by_cases hany : result.any (·.id == e.id) = true
    · rw [if_pos hany, if_neg (by rw [hany]; decide)]
    · have hnone : (!result.any (·.id == e.id)) = true := by
        rw [Bool.not_eq_true] at hany
        rw [hany]
        rfl
      rw [if_neg hany, if_pos hnone, List.append_assoc, List.singleton_append]
      congr 2
      apply List.filter_congr
      intro e' he'
      have hne : (e.id == e'.id) = false := by
        rw [beq_eq_false_iff_ne]
        exact fun hsame => h.1 (hsame ▸ List.mem_map_of_mem he')
      rw [List.any_append, List.any_cons, hne, List.any_nil, Bool.or_false, Bool.or_false]

section

variable [Sha256] {host : Host}

/-! ## Identity -/

/-- What a search finds for this memory of the launcher. -/
def search (host : Host) (layout : Layout) (s : State) : List Installation :=
  discover host layout s.installations s.known s.runtime

structure Identity (host : Host) (layout : Layout) (s : State) : Prop where
  distinct : ((search host layout s).map Installation.id).Nodup
  kept : ∀ item ∈ search host layout s,
    (item.game, item.source) ∈ installed layout s.installations.steamRoots →
      ∀ e ∈ s.installations.entries, Describes e item.game item.source → item.id = e.id
  passedOn : ∀ item ∈ search host layout s,
    (item.game, item.source) ∈ installed layout s.installations.steamRoots →
      ∀ e ∈ s.installations.entries, e.id = item.id → ¬ Describes e item.game item.source →
        ¬ Holds layout e ∧ ∀ e' ∈ s.installations.entries, ¬ Describes e' item.game item.source

/-! ## Its condition -/

/-- The installations that are listed before the entries that were not found. -/
def listed (host : Host) (layout : Layout) (s : State) : List Found :=
  (prepared host s.known s.runtime ++ installed layout s.installations.steamRoots).take 128

/-- The id that is made from where the game was found. -/
def newId (found : Found) : String := (Installation.new found.1 found.2).id

/-- No entry is taken for both, and an id that is made is not that of the other. -/
def Apart (layout : Layout) (entries : List Installation) (f g : Found) : Prop :=
  match entries.find? (takes layout f), entries.find? (takes layout g) with
  | some e, some e' => e ≠ e'
  | some e, none => e.id ≠ newId g
  | none, some e => newId f ≠ e.id
  | none, none => newId f ≠ newId g

structure Calm (host : Host) (layout : Layout) (s : State) : Prop where
  /-- no entry before one that describes the library takes its game -/
  first : ∀ f ∈ listed host layout s, f ∈ installed layout s.installations.steamRoots →
    ∀ older e newer, s.installations.entries = older ++ e :: newer → Describes e f.1 f.2 →
      ∀ o ∈ older, takes layout f o = false
  apart : (listed host layout s).Pairwise (Apart layout s.installations.entries)
  /-- an id that is made is not that of an entry whose library holds its game -/
  fresh : ∀ f ∈ listed host layout s, f ∈ installed layout s.installations.steamRoots →
    s.installations.entries.find? (takes layout f) = none →
      ∀ e ∈ s.installations.entries, e.id = newId f → ¬ Holds layout e

/-! ## The registries that are reached -/

/-- The memory of a launcher without entries, and what its requests make of it while the file system
changes in between. -/
inductive Reachable : State → Prop where
  | start {s : State} : s.installations.entries = [] → Reachable s
  | step {s : State} {host : Host} {layout : Layout} {request : Request} {change : Change} :
      Reachable s → prepare (searching host layout) s request = .ok change →
        validateRegistry change.state.installations = .ok () → Reachable change.state

theorem Reachable.nodup {s : State} (h : Reachable s) :
    (s.installations.entries.map Installation.id).Nodup := by
  cases h with
  | start hnone =>
    rw [hnone]
    exact List.nodup_nil
  | step _ _ hvalid => exact validateRegistry_nodup hvalid

/-! ## What is found -/

variable {s : State} {entries : List Installation} {item : Installation} {g : Found}

theorem identify_of_some (h : entries.find? (takes layout f) = some e) :
    identify layout entries f = ⟨e.id, f.1, f.2⟩ := by
  unfold identify
  rw [h]
  rfl

theorem identify_of_none (h : entries.find? (takes layout f) = none) :
    identify layout entries f = ⟨newId f, f.1, f.2⟩ := by
  unfold identify
  rw [h]
  rfl

theorem identify_found (entries : List Installation) (f : Found) :
    ((identify layout entries f).game, (identify layout entries f).source) = f := by
  unfold identify
  dsimp only
  split <;> rfl

/-- An Xbox runtime takes no entry. -/
theorem identify_xbox (game : Game) (path : Path) :
    identify layout entries (game, .xbox path) = Installation.new game (.xbox path) := by
  apply identify_of_none
  apply List.find?_eq_none.mpr
  intro e _
  unfold takes
  cases e.source <;> simp

omit [Sha256] in
theorem prepared_xbox {known : List (String × Path)} {selected : Option Path}
    (h : f ∈ prepared host known selected) : ∃ path, f.2 = .xbox path := by
  unfold prepared at h
  dsimp only at h
  generalize hfound : known.filterMap _ = found at h
  have hknown : ∀ f ∈ found, ∃ path, f.2 = .xbox path := by
    intro f hf
    rw [← hfound] at hf
    obtain ⟨row, _, hrow⟩ := List.mem_filterMap.mp hf
    split at hrow
    · cases hrow
      exact ⟨_, rfl⟩
    · cases hrow
  split at h
  · exact hknown f h
  · split at h
    · split at h
      · exact hknown f h
      · rcases List.mem_append.mp h with h | h
        · exact hknown f h
        · rw [List.mem_singleton.mp h]
          exact ⟨_, rfl⟩
    · exact hknown f h

omit [Sha256] in
theorem installed_steam {steamRoots : List SteamRoot} (h : f ∈ installed layout steamRoots) :
    ∃ client root library name, f.2 = .steam client root library name := by
  unfold installed at h
  obtain ⟨root, _, h⟩ := List.mem_flatMap.mp h
  split at h
  · cases h
  · obtain ⟨library, _, h⟩ := List.mem_flatMap.mp h
    obtain ⟨game, _, h⟩ := List.mem_filterMap.mp h
    split at h
    · cases h
      exact ⟨_, _, _, _, rfl⟩
    · cases h

theorem prepared_identify (layout : Layout) (entries : List Installation)
    {known : List (String × Path)} {selected : Option Path} :
    ((prepared host known selected).map fun (game, source) => Installation.new game source) =
      (prepared host known selected).map (identify layout entries) := by
  apply List.map_congr_left
  intro f hf
  obtain ⟨path, hpath⟩ := prepared_xbox hf
  obtain ⟨game, source⟩ := f
  cases hpath
  exact (identify_xbox game path).symm

/-- The search lists what it finds under its ids, and then the entries that it did not find. -/
theorem search_eq (host : Host) (layout : Layout)
    (h : (s.installations.entries.map Installation.id).Nodup) :
    ∃ rest, search host layout s =
        (listed host layout s).map (identify layout s.installations.entries) ++ rest ∧
      (rest.map Installation.id).Nodup ∧ ∀ item ∈ rest, item ∈ s.installations.entries ∧
        (∀ f ∈ installed layout s.installations.steamRoots, f ∈ listed host layout s) ∧
        ∀ f ∈ listed host layout s,
          (identify layout s.installations.entries f).id ≠ item.id := by
  let found := prepared host s.known s.runtime ++ installed layout s.installations.steamRoots
  let items := found.map (identify layout s.installations.entries)
  let missing := s.installations.entries.filter fun e => !items.any (·.id == e.id)
  have hsub : (missing.take (128 - items.length)).Sublist s.installations.entries :=
    (List.take_sublist _ _).trans List.filter_sublist
  refine ⟨missing.take (128 - items.length), ?_, h.sublist (hsub.map _), ?_⟩
  · unfold search discover
    dsimp only
    rw [prepared_identify layout s.installations.entries,
      ← List.map_append, foldl_addEntry h, List.take_append, ← List.map_take]
    rfl
  · intro item hitem
    have hmissing : item ∈ missing := List.mem_of_mem_take hitem
    have hshort : found.length < 128 := by
      by_contra hlong
      have hnone : 128 - items.length = 0 := by
        rw [List.length_map]
        omega
      rw [hnone, List.take_zero] at hitem
      cases hitem
    have hall : listed host layout s = found := List.take_of_length_le hshort.le
    obtain ⟨hentry, hother⟩ := List.mem_filter.mp hmissing
    refine ⟨hentry, ?_, ?_⟩
    · intro f hf
      rw [hall]
      exact List.mem_append_right _ hf
    · intro f hf hsame
      rw [hall] at hf
      have hany : items.any (·.id == item.id) = true :=
        List.any_eq_true.mpr ⟨_, List.mem_map_of_mem hf, beq_iff_eq.mpr hsame⟩
      rw [hany] at hother
      cases hother

/-! ## Clause by clause -/

variable (hnodup : (s.installations.entries.map Installation.id).Nodup)
include hnodup

theorem listed_mem (h : f ∈ listed host layout s) :
    identify layout s.installations.entries f ∈ search host layout s := by
  obtain ⟨rest, hsearch, _⟩ := search_eq host layout hnodup
  rw [hsearch]
  exact List.mem_append_left _ (List.mem_map_of_mem h)

omit [Sha256] hnodup in
/-- The first entry that takes a game is the one that describes its library. -/
theorem find_of_describes (hfirst : ∀ older e newer, s.installations.entries = older ++ e :: newer →
      Describes e f.1 f.2 → ∀ o ∈ older, takes layout f o = false)
    (he : e ∈ s.installations.entries) (hdescribes : Describes e f.1 f.2) :
    s.installations.entries.find? (takes layout f) = some e := by
  obtain ⟨older, newer, hsplit⟩ := List.append_of_mem he
  rw [hsplit]
  apply List.find?_eq_some_iff_append.mpr
  refine ⟨takes_of_describes hdescribes, older, newer, rfl, ?_⟩
  intro o ho
  rw [hfirst older e newer hsplit hdescribes o ho]
  rfl

theorem first_iff (f : Found) :
    (∀ older e newer, s.installations.entries = older ++ e :: newer →
      Describes e f.1 f.2 → ∀ o ∈ older, takes layout f o = false) ↔
    ∀ e ∈ s.installations.entries, Describes e f.1 f.2 →
      (identify layout s.installations.entries f).id = e.id := by
  constructor
  · intro hfirst e he hdescribes
    rw [identify_of_some (find_of_describes hfirst he hdescribes)]
  · intro hkept older e newer hsplit hdescribes o ho
    have he : e ∈ s.installations.entries := by
      rw [hsplit]
      exact List.mem_append_right _ List.mem_cons_self
    by_contra htakes
    rw [Bool.not_eq_false] at htakes
    -- the first entry that takes the game is an older one, and has another id
    obtain ⟨first, hfirst⟩ : ∃ first, older.find? (takes layout f) = some first :=
      Option.isSome_iff_exists.mp (List.find?_isSome.mpr ⟨o, ho, htakes⟩)
    have hfind : s.installations.entries.find? (takes layout f) = some first := by
      rw [hsplit, List.find?_append, hfirst]
      rfl
    have hid := hkept e he hdescribes
    rw [identify_of_some hfind] at hid
    have holder := List.mem_of_find?_eq_some hfirst
    have hsame := entry_eq hnodup (List.mem_of_find?_eq_some hfind) he hid
    rw [hsplit, List.map_append, List.map_cons] at hnodup
    have hdisjoint := List.nodup_append.mp hnodup
    exact hdisjoint.2.2 _ (List.mem_map_of_mem holder) _ List.mem_cons_self (congrArg _ hsame)

theorem apart_iff (f g : Found) :
    Apart layout s.installations.entries f g ↔
      (identify layout s.installations.entries f).id ≠
        (identify layout s.installations.entries g).id := by
  unfold Apart
  cases hf : s.installations.entries.find? (takes layout f) with
  | none =>
    rw [identify_of_none hf]
    cases hg : s.installations.entries.find? (takes layout g) with
    | none => rw [identify_of_none hg]
    | some e => rw [identify_of_some hg]
  | some e =>
    rw [identify_of_some hf]
    cases hg : s.installations.entries.find? (takes layout g) with
    | none => rw [identify_of_none hg]
    | some e' =>
      rw [identify_of_some hg]
      have he := List.mem_of_find?_eq_some hf
      have he' := List.mem_of_find?_eq_some hg
      constructor
      · exact fun hne hsame => hne (entry_eq hnodup he he' hsame)
      · exact fun hne hsame => hne (by rw [hsame])

theorem distinct_iff :
    ((search host layout s).map Installation.id).Nodup ↔
      (listed host layout s).Pairwise (Apart layout s.installations.entries) := by
  obtain ⟨rest, hsearch, hrest, hmissing⟩ := search_eq host layout hnodup
  have hlisted : (listed host layout s).Pairwise (Apart layout s.installations.entries) ↔
      (((listed host layout s).map (identify layout s.installations.entries)).map
        Installation.id).Nodup := by
    rw [List.map_map, List.Nodup, List.pairwise_map]
    exact List.Pairwise.iff fun f g => apart_iff hnodup f g
  rw [hsearch, hlisted, List.map_append, List.nodup_append]
  constructor
  · exact fun h => h.1
  · intro h
    refine ⟨h, hrest, ?_⟩
    intro id hid id' hid' hsame
    obtain ⟨item, hitem, rfl⟩ := List.mem_map.mp hid
    obtain ⟨f, hf, rfl⟩ := List.mem_map.mp hitem
    obtain ⟨item', hitem', rfl⟩ := List.mem_map.mp hid'
    exact (hmissing item' hitem').2.2 f hf hsame

/-! ## The condition is the identity -/

theorem Identity.calm (h : Identity host layout s) : Calm host layout s := by
  have hfound : ∀ {f}, (identify layout s.installations.entries f).game = f.1 ∧
      (identify layout s.installations.entries f).source = f.2 := fun {f} =>
    Prod.ext_iff.mp (identify_found s.installations.entries f)
  constructor
  · intro f hf hinstalled
    apply (first_iff hnodup f).mpr
    intro e he hdescribes
    apply h.kept _ (listed_mem hnodup hf)
    · rw [identify_found]
      exact hinstalled
    · exact he
    · rw [hfound.1, hfound.2]
      exact hdescribes
  · exact (distinct_iff hnodup).mp h.distinct
  · intro f hf hinstalled hnone e he hid
    have hother : ¬ Describes e f.1 f.2 := by
      intro hdescribes
      exact List.find?_eq_none.mp hnone e he (takes_of_describes hdescribes)
    have hpassed := h.passedOn _ (listed_mem hnodup hf) (by rwa [identify_found]) e he
    rw [identify_of_none hnone] at hpassed
    exact (hpassed hid hother).1

/-- An entry that was not found is not where a game was found. -/
theorem Calm.found (h : Calm host layout s) (hitem : item ∈ search host layout s)
    (hinstalled : (item.game, item.source) ∈ installed layout s.installations.steamRoots) :
    (item.game, item.source) ∈ listed host layout s ∧
      item = identify layout s.installations.entries (item.game, item.source) := by
  obtain ⟨rest, hsearch, _, hmissing⟩ := search_eq host layout hnodup
  rw [hsearch] at hitem
  rcases List.mem_append.mp hitem with hitem | hitem
  · obtain ⟨f, hf, rfl⟩ := List.mem_map.mp hitem
    rw [identify_found]
    exact ⟨hf, rfl⟩
  · obtain ⟨hentry, hall, hother⟩ := hmissing item hitem
    have hlisted := hall _ hinstalled
    have hdescribes : Describes item item.game item.source := by
      refine ⟨rfl, ?_⟩
      obtain ⟨client, root, library, name, hsource⟩ := installed_steam hinstalled
      rw [show item.source = _ from hsource]
      exact ⟨rfl, rfl⟩
    have hid := (first_iff hnodup _).mp (h.first _ hlisted hinstalled) item hentry hdescribes
    exact absurd hid (hother _ hlisted)

theorem Calm.identity (h : Calm host layout s) : Identity host layout s := by
  constructor
  · exact (distinct_iff hnodup).mpr h.apart
  · intro item hitem hinstalled e he hdescribes
    obtain ⟨hlisted, hsame⟩ := h.found hnodup hitem hinstalled
    rw [hsame]
    exact (first_iff hnodup _).mp (h.first _ hlisted hinstalled) e he hdescribes
  · intro item hitem hinstalled e he hid hother
    obtain ⟨hlisted, hsame⟩ := h.found hnodup hitem hinstalled
    have hfirst := h.first _ hlisted hinstalled
    cases hfind : s.installations.entries.find? (takes layout (item.game, item.source)) with
    | none =>
      rw [identify_of_none hfind] at hsame
      refine ⟨h.fresh _ hlisted hinstalled hfind e he (hid.trans (congrArg _ hsame)), ?_⟩
      intro e' he' hdescribes
      exact List.find?_eq_none.mp hfind e' he' (takes_of_describes hdescribes)
    | some o =>
      rw [identify_of_some hfind] at hsame
      have ho := List.mem_of_find?_eq_some hfind
      have hids : item.id = o.id := by
        have := congrArg Installation.id hsame
        exact this
      have heq : e = o := entry_eq hnodup he ho (hid.trans hids)
      have htakes := List.find?_some hfind
      rw [heq] at hother
      refine ⟨heq ▸ not_holds_of_takes htakes hother, ?_⟩
      intro e' he' hdescribes
      have hfind' := find_of_describes hfirst he' hdescribes
      rw [hfind] at hfind'
      cases hfind'
      exact hother hdescribes

omit hnodup

end

/-! ## A library that is left and found again -/

section

local instance identitySha256 : Sha256 := standardSha256

/-- A host without Xbox runtimes. -/
def desk : Host where
  validate _ := .error .io
  forRuntime _ := .error .io
  ready _ := true
  «open» := .ok ()
  idle := .ok ()
  discover _ _ _ := []
  context _ := ""
  check _ := .ok ()
  steamRoot := .ok
  clientBinding _ _ := .ok ()

def lookup (files : List (Path × Block)) (path : Path) : Except Error Block :=
  match files.find? (·.1 == path) with
  | some file => .ok file.2
  | none => .error .io

def inLibrary (library : Path) : Source := .steam .native "/h/.local/share/Steam" library "MSFS"

/-- The first installation that is found is selected. -/
def pick (layout : Layout) (s : State) : Except Error State := do
  let some item := (search desk layout s).head? | throw .io
  let change ← prepare (searching desk layout) s (.select item.id (some ""))
  validateRegistry change.state.installations
  return change.state

theorem Reachable.pick {s s' : State} {layout : Layout} (h : Reachable s)
    (hpick : pick layout s = .ok s') : Reachable s' := by
  unfold Installations.pick at hpick
  split at hpick
  · obtain ⟨change, hprepare, hpick⟩ := bind_eq_ok.mp hpick
    obtain ⟨_, hvalid, hpick⟩ := bind_eq_ok.mp hpick
    rw [← pure_eq_ok.mp hpick]
    exact h.step hprepare hvalid
  · cases hpick

def empty : State := ⟨{}, none, none, []⟩

def gameIn (library : Path) : Installation := Installation.new .msfs2024 (inLibrary library)

/-- The game was selected in one library, and then in another. -/
def moved : State :=
  ⟨{ selected := some (gameIn "/b").id, entries := [gameIn "/a", gameIn "/b"] },
    some (gameIn "/b"), none, []⟩

end

end Flightdeck.Installations
