import Mathlib.Data.List.ReduceOption
import Flightdeck.Foundation.Outcome
import Flightdeck.Updates.ReleaseFeed

/-!
# Which release is selected

Both lookups select the highest release that is offered, wherever it stands in its feed, or none.
-/

namespace Flightdeck.Updates

open Foundation
open StrictJson (Value)
open Fenix (Version STABLE stable launcherVersion version)

theorem require_eq_ok {ok : Bool} {e : Error} {x : Unit} : require ok e = .ok x ↔ ok = true := by
  cases ok
  · simp [require]
  · simp [require]

/-- A loop of fallible steps succeeds exactly when every step does. -/
theorem mapM_eq_ok {ε α β : Type} {f : α → Except ε β} {rows : List α} {made : List β} :
    rows.mapM f = .ok made ↔ rows.map f = made.map .ok := by
  induction rows generalizing made with
  | nil =>
    rw [List.mapM_nil, pure_eq_ok, List.map_nil]
    cases made <;> simp
  | cons row rows ih =>
    rw [List.mapM_cons, bind_eq_ok, List.map_cons]
    constructor
    · rintro ⟨first, hfirst, hrest⟩
      obtain ⟨rest, hrows, hmade⟩ := bind_eq_ok.mp hrest
      rw [← pure_eq_ok.mp hmade, List.map_cons, hfirst, ih.mp hrows]
    · intro h
      cases made with
      | nil => cases h
      | cons first rest =>
        rw [List.map_cons] at h
        obtain ⟨hfirst, hrest⟩ := List.cons.inj h
        exact ⟨first, hfirst, bind_eq_ok.mpr ⟨rest, ih.mpr hrest, rfl⟩⟩

theorem single_eq_ok {α : Type} {error : Error} {rows : List α} {row : α} :
    single error rows = .ok row ↔ rows = [row] := by
  unfold single
  split
  next only => simp
  next hnot =>
    constructor
    · intro h
      cases h
    · intro h
      exact absurd h (hnot row)

/-- Whether there is exactly one row, and which, does not depend on the order. -/
theorem single_perm {α : Type} {error : Error} {rows rows' : List α} (hperm : rows.Perm rows') :
    single error rows = single error rows' := by
  match rows, rows', hperm with
  | [], _, hperm => rw [hperm.nil_eq]
  | [row], _, hperm => rw [List.singleton_perm.mp hperm]
  | _ :: _ :: _, [], hperm => cases hperm.length_eq
  | _ :: _ :: _, [_], hperm => cases hperm.length_eq
  | _ :: _ :: _, _ :: _ :: _, _ => rfl

/-! ## Tags -/

/-- A piece of a path that stands for itself. -/
def Segment (text : List Char) : Prop :=
  (∀ c ∈ text, c.isAlphanum = true ∨ c = '.' ∨ c = '-') ∧ text ≠ ['.'] ∧ text ≠ ['.', '.']

theorem digit_alphanum {c : Char} (h : c.isDigit = true) : c.isAlphanum = true := by
  rw [Char.isAlphanum, h, Bool.or_true]

theorem mem_intercalate_cons {c separator : Char} {piece : List Char} {pieces : List (List Char)}
    (h : c ∈ [separator].intercalate (piece :: pieces)) :
    c ∈ piece ∨ c = separator ∨ c ∈ [separator].intercalate pieces := by
  cases pieces with
  | nil =>
    rw [List.intercalate_singleton] at h
    exact .inl h
  | cons next pieces =>
    rw [List.intercalate_cons_cons, List.append_assoc, List.mem_append, List.mem_append,
      List.mem_singleton] at h
    exact h

theorem mem_intercalate {c separator : Char} {pieces : List (List Char)}
    (h : c ∈ [separator].intercalate pieces) : c = separator ∨ ∃ piece ∈ pieces, c ∈ piece := by
  induction pieces with
  | nil => cases h
  | cons piece pieces ih =>
    rcases mem_intercalate_cons h with hpiece | rfl | hrest
    · exact .inr ⟨piece, List.mem_cons_self, hpiece⟩
    · exact .inl rfl
    · rcases ih hrest with rfl | ⟨later, hlater, hc⟩
      · exact .inl rfl
      · exact .inr ⟨later, List.mem_cons_of_mem _ hlater, hc⟩

theorem number_digits {piece : List Char} {n : Nat} (h : Fenix.number piece = some n) :
    ∀ c ∈ piece, c.isDigit = true := by
  unfold Fenix.number at h
  split at h
  next hzero =>
    intro c hc
    rw [hzero, List.mem_singleton] at hc
    rw [hc]
    rfl
  next =>
    split at h
    next hdigits => exact List.all_eq_true.mp hdigits.2.2.1
    next => cases h

theorem numbers_digits {pieces : List (List Char)} {numbers : List Nat}
    (h : pieces.mapM Fenix.number = some numbers) :
    ∀ piece ∈ pieces, ∀ c ∈ piece, c.isDigit = true := by
  induction pieces generalizing numbers with
  | nil => exact fun piece hpiece => absurd hpiece List.not_mem_nil
  | cons piece pieces ih =>
    rw [List.mapM_cons] at h
    obtain ⟨n, hn, h⟩ := Option.bind_eq_some_iff.mp h
    obtain ⟨rest, hrest, _⟩ := Option.bind_eq_some_iff.mp h
    exact List.forall_mem_cons.mpr ⟨number_digits hn, ih hrest⟩

theorem mem_stripV {c : Char} {text : List Char} (h : c ∈ text) :
    c = 'v' ∨ c ∈ Fenix.stripV text := by
  unfold Fenix.stripV
  split
  next rest => exact List.mem_cons.mp h
  next => exact .inr h

theorem launcherVersion_chars {text : List Char} {number : List Nat}
    (h : launcherVersion text = .ok number) :
    ∀ c ∈ text, c.isAlphanum = true ∨ c = '.' ∨ c = '-' := by
  unfold launcherVersion at h
  split at h
  next _ _ _ hnumbers =>
    intro c hc
    rcases mem_stripV hc with rfl | hc
    · exact .inl rfl
    · have hjoin : ['.'].intercalate ((Fenix.stripV text).splitOn '.') = Fenix.stripV text :=
        List.intercalate_splitOn '.'
      rw [← hjoin] at hc
      rcases mem_intercalate hc with rfl | ⟨piece, hpiece, hc⟩
      · exact .inr (.inl rfl)
      · exact .inl (digit_alphanum (numbers_digits hnumbers piece hpiece c hc))
  next => cases h

theorem segment_of_launcherVersion {text : List Char} {number : List Nat}
    (h : launcherVersion text = .ok number) : Segment text := by
  refine ⟨launcherVersion_chars h, ?_, ?_⟩
  · rintro rfl
    cases h
  · rintro rfl
    cases h

theorem segment_of_version {tag : String} {number : Version} (h : version tag = .ok number) :
    Segment tag.toList := by
  have hdots : ∀ text : String, version text = .error (.invalid
      "GitHub meldet eine ungültige Flightdeck-Version.") → tag ≠ text := by
    rintro text hrefused rfl
    rw [hrefused] at h
    cases h
  refine ⟨?_, ?_, ?_⟩
  · intro c hc
    unfold version at h
    rcases mem_stripV hc with rfl | hc
    · exact .inl rfl
    · dsimp only at h
      split at h
      next base n hbreak =>
        obtain ⟨_, hpreview, h⟩ := bind_eq_ok.mp h
        obtain ⟨_, hbase, _⟩ := bind_eq_ok.mp h
        rw [require_eq_ok, Bool.and_eq_true] at hpreview
        rw [breakOn_eq hbreak, List.append_assoc, List.mem_append, List.mem_append] at hc
        rcases hc with hc | hc | hc
        · exact launcherVersion_chars hbase c hc
        · have hpattern : "-preview.".toList.all
              (fun c => c.isAlphanum || (c == '.' || c == '-')) = true := by decide
          simpa using List.all_eq_true.mp hpattern c hc
        · exact .inl (digit_alphanum (List.all_eq_true.mp hpreview.2 c hc))
      next =>
        obtain ⟨_, htext, _⟩ := bind_eq_ok.mp h
        exact launcherVersion_chars htext c hc
  · intro htag
    exact hdots "." rfl (String.toList_injective htag)
  · intro htag
    exact hdots ".." rfl (String.toList_injective htag)

/-! ## Assets -/

theorem string_eq_ok {value : Value} {key text : String} :
    string value key = .ok text ↔ asText (field value key) = some text := by
  unfold string
  cases asText (field value key) <;> simp

theorem named_eq_nil (file : String) (raw : Value) :
    named file raw = [] ↔ carries file raw = false := by
  unfold named carries
  cases asArray (field raw "assets") with
  | none => simp
  | some assets => simp [List.filter_eq_nil_iff]

/-- What a lookup returns of a release: a download from the release path of the project. -/
structure Genuine (project file : String) (limit : Nat) (tag : String) (value : Value) : Prop where
  version_eq : field value "version" = .string (withoutV tag)
  tag_eq : field value "tag" = .string tag
  segment : Segment tag.toList
  url_eq : field value "url" = .string (downloadUrl project file tag)
  digest : ∃ checksum, field value "sha256" = .string checksum ∧ hexDigest checksum = true
  size : ∃ n, asU64 (field value "size") = some n ∧ 0 < n ∧ n ≤ limit

theorem checkAsset_eq_ok {project file invalid tag checksum : String} {limit : Nat} {asset : Value}
    (h : checkAsset project file limit invalid tag asset = .ok checksum) :
    hexDigest checksum = true ∧ ∃ n, asU64 (field asset "size") = some n ∧ 0 < n ∧ n ≤ limit := by
  unfold checkAsset at h
  obtain ⟨digest, _, h⟩ := bind_eq_ok.mp h
  split at h
  · cases h
  · obtain ⟨_, hchecked, hreturned⟩ := bind_eq_ok.mp h
    rw [require_eq_ok, Bool.and_eq_true, Bool.and_eq_true, Bool.and_eq_true] at hchecked
    obtain ⟨⟨_, hsize⟩, hhex⟩ := hchecked
    obtain ⟨n, hn, hbound⟩ := (Option.any_eq_true ..).mp hsize
    rw [← pure_eq_ok.mp hreturned]
    exact ⟨hhex, n, hn, of_decide_eq_true hbound⟩

/-! ## The launcher -/

namespace Launcher

variable {rows rows' : List Value} {entry r : Value} {number : List Nat}

/-- The version that a published release with the asset is offered as. -/
def offered (raw : Value) : Option (List Nat) :=
  if published raw && carries ASSET raw then
    (asText (field raw "tag_name")).bind fun tag => (launcherVersion tag.toList).toOption
  else none

theorem candidates_eq (rows : List Value) :
    candidates rows = rows.filterMap fun raw => (offered raw).map fun number => (number, raw) := by
  unfold candidates
  rw [List.filterMap_filter, List.filterMap_filter]
  refine List.filterMap_congr fun raw _ => ?_
  unfold offered candidate
  by_cases hpublished : published raw <;> by_cases hcarries : carries ASSET raw <;>
    simp [hpublished, hcarries, Option.map_bind]

/-- The rows that the search compares are the releases that are offered. -/
theorem highest_candidates :
    Highest (some ∘ Prod.fst) (candidates rows) (number, entry) number ↔
      Highest offered rows entry number := by
  rw [candidates_eq, highest_filterMap]
  have hrank : (fun raw => ((offered raw).map fun number => (number, raw)).map Prod.fst) =
      offered := by
    funext raw
    rw [Option.map_map]
    exact congrFun Option.map_id _
  constructor
  · rintro ⟨row, hmake, h⟩
    rw [hrank] at h
    obtain ⟨n, _, hpair⟩ := Option.map_eq_some_iff.mp hmake
    cases hpair
    exact h
  · intro h
    refine ⟨entry, by rw [h.1]; rfl, ?_⟩
    rw [hrank]
    exact h

theorem stableRelease_eq_ok :
    stableRelease (.array rows) = .ok r ↔ rows.length ≤ 50 ∧
      ∃ entry number, Highest offered rows entry number ∧ releaseMetadata entry = .ok r := by
  unfold stableRelease
  show (require (rows.length ≤ 50) _ >>= fun _ => _) = .ok r ↔ _
  rw [bind_eq_ok]
  constructor
  · rintro ⟨_, hlength, h⟩
    refine ⟨of_decide_eq_true (require_eq_ok.mp hlength), ?_⟩
    cases hmax : ((candidates rows).map Prod.fst).max? with
    | none =>
      rw [hmax] at h
      cases h
    | some newest =>
      rw [hmax] at h
      dsimp only at h
      obtain ⟨⟨number, entry⟩, hrow, hmetadata⟩ := bind_eq_ok.mp h
      have hhighest := (filter_max_iff hmax).mp (single_eq_ok.mp hrow)
      have hnumber : number = newest := Option.some.inj hhighest.1
      subst hnumber
      exact ⟨entry, number, highest_candidates.mp hhighest, hmetadata⟩
  · rintro ⟨hlength, entry, number, hhighest, hmetadata⟩
    refine ⟨(), require_eq_ok.mpr (decide_eq_true hlength), ?_⟩
    have hrow := highest_candidates.mpr hhighest
    have hmax := hrow.max
    rw [hmax]
    dsimp only
    rw [(filter_max_iff hmax).mpr hrow]
    exact hmetadata

/-- Rows in another order are compared with the same result, also where they are refused. -/
theorem stableRelease_perm (hperm : rows.Perm rows') :
    stableRelease (.array rows) = stableRelease (.array rows') := by
  have hcandidates : (candidates rows).Perm (candidates rows') :=
    ((hperm.filter _).filter _).filterMap _
  have hmax : ((candidates rows).map Prod.fst).max? = ((candidates rows').map Prod.fst).max? := by
    ext newest
    rw [List.max?_eq_some_iff, List.max?_eq_some_iff]
    have hnumbers := hcandidates.map Prod.fst
    rw [hnumbers.mem_iff]
    simp only [hnumbers.mem_iff]
  unfold stableRelease
  simp only [asArray, hperm.length_eq, hmax]
  refine congrArg _ (funext fun _ => ?_)
  cases ((candidates rows').map Prod.fst).max? with
  | none => rfl
  | some newest =>
    dsimp only
    rw [single_perm (hcandidates.filter _)]

/-- The highest release that is offered is not replaced by an older one. -/
theorem stableRelease_refused {others : List Value} (hperm : rows.Perm (entry :: others))
    (hentry : offered entry = some number)
    (hbelow : ∀ other ∈ others, ∀ n, offered other = some n → n ≤ number)
    (hbad : (∃ e, releaseMetadata entry = .error e) ∨
      ∃ other ∈ others, offered other = some number) :
    ∃ e, stableRelease (.array rows) = .error e := by
  cases hselected : stableRelease (.array rows) with
  | error e => exact ⟨e, rfl⟩
  | ok r =>
    exfalso
    rw [stableRelease_perm hperm] at hselected
    obtain ⟨_, top, highest, hhighest, hmetadata⟩ := stableRelease_eq_ok.mp hselected
    have htop : highest ≤ number := by
      rcases List.mem_cons.mp hhighest.mem with rfl | hother
      · exact (Option.some.inj (hentry.symm.trans hhighest.1)).ge
      · exact hbelow top hother highest hhighest.1
    rcases hhighest.eq_or_lt List.mem_cons_self hentry with rfl | hlt
    · obtain ⟨e, he⟩ | ⟨other, hother, hnumber⟩ := hbad
      · rw [he] at hmetadata
        cases hmetadata
      · have hlt := hhighest.below (List.Perm.refl _) hother hnumber
        rw [Option.some.inj (hhighest.1.symm.trans hentry)] at hlt
        exact lt_irrefl _ hlt
    · exact absurd hlt (not_lt.mpr htop)

theorem releaseMetadata_genuine (h : releaseMetadata entry = .ok r) :
    ∃ tag, asText (field entry "tag_name") = some tag ∧
      (∃ number, launcherVersion tag.toList = .ok number) ∧
      Genuine PROJECT ASSET MAX_ARCHIVE tag r := by
  unfold releaseMetadata at h
  obtain ⟨_, _, h⟩ := bind_eq_ok.mp h
  obtain ⟨tag, htag, h⟩ := bind_eq_ok.mp h
  obtain ⟨number, hnumber, h⟩ := bind_eq_ok.mp h
  refine ⟨tag, string_eq_ok.mp htag, ⟨number, hnumber⟩, ?_⟩
  obtain ⟨asset, _, h⟩ := bind_eq_ok.mp h
  obtain ⟨checksum, hchecked, h⟩ := bind_eq_ok.mp h
  obtain ⟨hhex, hsize⟩ := checkAsset_eq_ok hchecked
  rw [← pure_eq_ok.mp h]
  exact ⟨rfl, rfl, segment_of_launcherVersion hnumber, rfl, ⟨checksum, rfl, hhex⟩, hsize⟩

/-- `r` describes the one release of the feed that lies above all others on offer. -/
def Selected (feed r : Value) : Prop :=
  ∃ rows entry number tag, feed = .array rows ∧ Highest offered rows entry number ∧
    asText (field entry "tag_name") = some tag ∧ launcherVersion tag.toList = .ok number ∧
    Genuine PROJECT ASSET MAX_ARCHIVE tag r

theorem stableRelease_selected {feed : Value} (h : stableRelease feed = .ok r) :
    Selected feed r := by
  cases feed with
  | array rows =>
    obtain ⟨_, entry, number, hhighest, hmetadata⟩ := stableRelease_eq_ok.mp h
    obtain ⟨tag, htag, ⟨n, hn⟩, hgenuine⟩ := releaseMetadata_genuine hmetadata
    have hnumber : offered entry = some number := hhighest.1
    unfold offered at hnumber
    split at hnumber
    next =>
      rw [htag, Option.bind_some, hn] at hnumber
      have hsame : n = number := Option.some.inj hnumber
      subst hsame
      exact ⟨rows, entry, n, tag, rfl, hhighest, htag, hn, hgenuine⟩
    next => cases hnumber
  | _ => cases h

end Launcher

/-! ## The add-on -/

namespace Fenix

variable {rows rows' : List Value} {raw entry value : Value} {current number : Version}
  {installed : String}

/-- The version that a published release with the asset is offered as, to an installation of the
version `current`: a newer one, and no preview where a stable version is installed. -/
def offered (current : Version) (raw : Value) : Option Version :=
  if asBool (field raw "draft") = some false ∧ carries ASSET raw = true then
    ((asText (field raw "tag_name")).bind fun tag => (version tag).toOption).filter fun number =>
      current < number ∧ (stable current = true → stable number = true)
  else none

theorem advertised_eq_ok {tag : String} {found : Option (Version × Value)}
    (h : advertised number tag raw = .ok found) :
    (carries ASSET raw = false ∧ found = none) ∨
      (carries ASSET raw = true ∧ ∃ checksum size, hexDigest checksum = true ∧
        (∃ n, asU64 size = some n ∧ 0 < n ∧ n ≤ LIMIT) ∧
        found = some (number, .object [("version", .string (withoutV tag)), ("tag", .string tag),
          ("url", .string (downloadUrl PROJECT ASSET tag)), ("sha256", .string checksum),
          ("size", size)])) := by
  unfold advertised at h
  obtain ⟨_, _, h⟩ := bind_eq_ok.mp h
  split at h
  next hempty =>
    exact .inl ⟨(named_eq_nil ASSET raw).mp (List.isEmpty_iff.mp hempty), (pure_eq_ok.mp h).symm⟩
  next hempty =>
    obtain ⟨asset, _, h⟩ := bind_eq_ok.mp h
    obtain ⟨checksum, hchecked, h⟩ := bind_eq_ok.mp h
    obtain ⟨hhex, hsize⟩ := checkAsset_eq_ok hchecked
    have hcarries : carries ASSET raw = true := by
      rw [← Bool.not_eq_false]
      exact fun hnone => hempty (List.isEmpty_iff.mpr ((named_eq_nil ASSET raw).mpr hnone))
    exact .inr ⟨hcarries, checksum, _, hhex, hsize, (pure_eq_ok.mp h).symm⟩

/-- The comparisons, in the words of the source and as what they are for. -/
theorem compared_iff :
    ¬(number ≤ current ∨ (stable current = true ∧ stable number = false)) ↔
      current < number ∧ (stable current = true → stable number = true) := by
  rw [not_or, not_le, not_and, Bool.not_eq_false]

/-- What the loop makes of a release that it does not refuse. -/
theorem offer_eq_ok {found : Option (Version × Value)} (h : offer current raw = .ok found) :
    offered current raw = found.map Prod.fst := by
  unfold offer at h
  unfold offered
  split at h
  next hdraft =>
    rw [if_neg fun hboth => hdraft hboth.1, ← pure_eq_ok.mp h]
    rfl
  next hdraft =>
    rw [not_not] at hdraft
    split at h
    next htag =>
      rw [htag, ← pure_eq_ok.mp h]
      exact ite_self none
    next tag htag =>
      rw [htag, Option.bind_some]
      split at h
      next hversion =>
        rw [hversion, ← pure_eq_ok.mp h]
        exact ite_self none
      next number hversion =>
        rw [hversion]
        show (if _ then Option.filter _ (some number) else none) = _
        split at h
        next hskip =>
          have hnot := mt compared_iff.mpr (not_not.mpr hskip)
          rw [Option.filter_some_neg (by simpa using hnot), ← pure_eq_ok.mp h]
          exact ite_self none
        next hskip =>
          rw [Option.filter_some_pos (by exact decide_eq_true (compared_iff.mp hskip))]
          rcases advertised_eq_ok h with ⟨hcarries, rfl⟩ | ⟨hcarries, _, _, _, _, rfl⟩
          · rw [hcarries, if_neg fun hboth => Bool.false_ne_true hboth.2]
            rfl
          · rw [if_pos ⟨hdraft, hcarries⟩]
            rfl

theorem offers_eq_ok {found : List (Version × Value)} :
    offers current rows = .ok found ↔ (∀ raw ∈ rows, ∃ o, offer current raw = .ok o) ∧
      found = rows.filterMap fun raw => (offer current raw).toOption.join := by
  unfold offers
  rw [bind_eq_ok]
  have hjoin : ∀ made : List (Option (Version × Value)), rows.map (offer current) = made.map .ok →
      made.reduceOption = rows.filterMap fun raw => (offer current raw).toOption.join := by
    intro made hmade
    have hvalues : made = rows.map fun raw => (offer current raw).toOption.join := by
      have happly := congrArg (List.map fun x => (Except.toOption x).join) hmade
      rw [List.map_map, List.map_map] at happly
      exact (List.map_id made).symm.trans happly.symm
    rw [hvalues, List.reduceOption, List.filterMap_map]
    rfl
  constructor
  · rintro ⟨made, hmade, hfound⟩
    rw [mapM_eq_ok] at hmade
    refine ⟨fun raw hraw => ?_, ?_⟩
    · have hin : offer current raw ∈ made.map .ok := by
        rw [← hmade]
        exact List.mem_map_of_mem hraw
      obtain ⟨o, _, ho⟩ := List.mem_map.mp hin
      exact ⟨o, ho.symm⟩
    · rw [← pure_eq_ok.mp hfound]
      exact hjoin made hmade
  · rintro ⟨hall, rfl⟩
    have hmade : rows.map (offer current) =
        (rows.map fun raw => (offer current raw).toOption.join).map .ok := by
      rw [List.map_map]
      refine List.map_congr_left fun raw hraw => ?_
      obtain ⟨o, ho⟩ := hall raw hraw
      rw [Function.comp_apply, ho]
      rfl
    exact ⟨_, mapM_eq_ok.mpr hmade, congrArg Except.ok (hjoin _ hmade)⟩

theorem key_inj {a b : Version} : key a = key b ↔ a = b := by
  constructor
  · intro h
    exact (Prod.mk.inj (toLex.injective h)).2
  · intro h
    rw [h]

/-- Stable versions lie above previews, and versions of one kind in their own order. -/
theorem key_le {a b : Version} (h : key a ≤ key b) :
    (stable a = true → stable b = true) ∧ (stable a = stable b → a ≤ b) := by
  rcases Prod.Lex.le_iff.mp h with hlt | ⟨hsame, hle⟩
  · obtain ⟨hpreview, hstable⟩ := Bool.lt_iff.mp hlt
    exact ⟨fun _ => hstable, fun hsame => by
      rw [show stable a = false from hpreview, show stable b = true from hstable] at hsame
      cases hsame⟩
  · exact ⟨fun hstable => (show stable a = stable b from hsame) ▸ hstable, fun _ => hle⟩

/-- The releases that are offered to an installation, in the order of `sort_by_key`. -/
def rank (current : Version) (raw : Value) : Option (Bool ×ₗ Version) :=
  (offered current raw).map key

theorem rank_eq (hall : ∀ raw ∈ rows, ∃ o, offer current raw = .ok o) (hraw : raw ∈ rows) :
    rank current raw = ((offer current raw).toOption.join).map fun row => key row.1 := by
  obtain ⟨o, ho⟩ := hall raw hraw
  rw [rank, offer_eq_ok ho, ho, Option.map_map]
  rfl

theorem toOption_join_eq_some {found : Version × Value} :
    (offer current raw).toOption.join = some found ↔ offer current raw = .ok (some found) := by
  cases offer current raw with
  | error e => simp [Except.toOption]
  | ok o => simp [Except.toOption]

theorem found_eq_nil (hall : ∀ raw ∈ rows, ∃ o, offer current raw = .ok o) :
    (rows.filterMap fun raw => (offer current raw).toOption.join) = [] ↔
      ∀ raw ∈ rows, offered current raw = none := by
  rw [List.filterMap_eq_nil_iff]
  refine forall₂_congr fun raw hraw => ?_
  obtain ⟨o, ho⟩ := hall raw hraw
  rw [offer_eq_ok ho, ho, Option.map_eq_none_iff]
  rfl

theorem highest_found (hall : ∀ raw ∈ rows, ∃ o, offer current raw = .ok o) :
    Highest (some ∘ fun row : Version × Value => key row.1)
        (rows.filterMap fun raw => (offer current raw).toOption.join) (number, value) (key number) ↔
      ∃ entry, offer current entry = .ok (some (number, value)) ∧
        Highest (rank current) rows entry (key number) := by
  rw [highest_filterMap]
  refine exists_congr fun entry => ?_
  rw [toOption_join_eq_some, Highest.congr fun raw hraw => (rank_eq hall hraw).symm]

/-- The last of the sorted rows, if no other has its version, is the highest one. -/
theorem last_only_iff {found : List (Version × Value)} {last : Version × Value} :
    ((sortedBy (fun row => key row.1) found).getLast? = some last ∧
      (found.countP (fun row => row.1 = last.1) == 1) = true) ↔
        Highest (some ∘ fun row : Version × Value => key row.1) found last (key last.1) := by
  rw [← last_highest_iff, beq_iff_eq]
  simp only [key_inj]

theorem releaseMetadata_eq_ok {result : Option Value} :
    releaseMetadata (.array rows) installed = .ok result ↔
      rows.length ≤ 50 ∧ ∃ current, version installed = .ok current ∧
        (∀ raw ∈ rows, ∃ o, offer current raw = .ok o) ∧
        match result with
        | none => ∀ raw ∈ rows, offered current raw = none
        | some value => ∃ entry number, offer current entry = .ok (some (number, value)) ∧
            Highest (rank current) rows entry (key number) := by
  unfold releaseMetadata
  rw [bind_eq_ok]
  dsimp only [asArray]
  constructor
  · rintro ⟨current, hversion, h⟩
    obtain ⟨_, hlength, h⟩ := bind_eq_ok.mp h
    obtain ⟨found, hfound, h⟩ := bind_eq_ok.mp h
    obtain ⟨hall, rfl⟩ := offers_eq_ok.mp hfound
    refine ⟨of_decide_eq_true (require_eq_ok.mp hlength), current, hversion, hall, ?_⟩
    split at h
    next hlast =>
      rw [← pure_eq_ok.mp h]
      exact (found_eq_nil hall).mp (getLast?_sortedBy_eq_none.mp hlast)
    next last hlast =>
      obtain ⟨_, hone, h⟩ := bind_eq_ok.mp h
      rw [← pure_eq_ok.mp h]
      have hhighest := last_only_iff.mp ⟨hlast, require_eq_ok.mp hone⟩
      obtain ⟨entry, hoffer, hrows⟩ := (highest_found hall).mp hhighest
      exact ⟨entry, last.1, hoffer, hrows⟩
  · rintro ⟨hlength, current, hversion, hall, hresult⟩
    refine ⟨current, hversion, bind_eq_ok.mpr ⟨(), require_eq_ok.mpr (decide_eq_true hlength), ?_⟩⟩
    refine bind_eq_ok.mpr ⟨_, offers_eq_ok.mpr ⟨hall, rfl⟩, ?_⟩
    cases result with
    | none =>
      rw [getLast?_sortedBy_eq_none.mpr ((found_eq_nil hall).mpr hresult)]
      rfl
    | some value =>
      obtain ⟨entry, number, hoffer, hrows⟩ := hresult
      obtain ⟨hlast, hone⟩ := last_only_iff.mpr ((highest_found hall).mpr ⟨entry, hoffer, hrows⟩)
      rw [hlast]
      exact bind_eq_ok.mpr ⟨(), require_eq_ok.mpr hone, rfl⟩

/-- Rows in another order give the same release, or are refused as well. -/
theorem releaseMetadata_perm (hperm : rows.Perm rows') {result : Option Value}
    (h : releaseMetadata (.array rows) installed = .ok result) :
    releaseMetadata (.array rows') installed = .ok result := by
  rw [releaseMetadata_eq_ok] at h ⊢
  obtain ⟨hlength, current, hversion, hall, hresult⟩ := h
  refine ⟨hperm.length_eq ▸ hlength, current, hversion,
    fun raw hraw => hall raw (hperm.mem_iff.mpr hraw), ?_⟩
  cases result with
  | none => exact fun raw hraw => hresult raw (hperm.mem_iff.mpr hraw)
  | some value =>
    obtain ⟨entry, number, hoffer, hrows⟩ := hresult
    exact ⟨entry, number, hoffer, hrows.perm hperm⟩

theorem offer_genuine (h : offer current entry = .ok (some (number, value))) :
    ∃ tag, asText (field entry "tag_name") = some tag ∧ version tag = .ok number ∧
      current < number ∧ (stable current = true → stable number = true) ∧
      Genuine PROJECT ASSET LIMIT tag value := by
  unfold offer at h
  split at h
  next => cases h
  next =>
    split at h
    next => cases h
    next tag htag =>
      split at h
      next => cases h
      next n hversion =>
        split at h
        next => cases h
        next hskip =>
          rcases advertised_eq_ok h with ⟨_, hnone⟩ | ⟨_, checksum, size, hhex, hsize, hfound⟩
          · cases hnone
          · obtain ⟨rfl, rfl⟩ := Prod.mk.inj (Option.some.inj hfound)
            obtain ⟨hnewer, hkind⟩ := compared_iff.mp hskip
            exact ⟨tag, htag, hversion, hnewer, hkind, rfl, rfl, segment_of_version hversion, rfl,
              ⟨checksum, rfl, hhex⟩, hsize⟩

/-- A release that is refused, and a version that is offered twice above all others, end the
lookup. -/
theorem releaseMetadata_refused {others : List Value} (hversion : version installed = .ok current)
    (hperm : rows.Perm (entry :: others)) (hentry : offered current entry = some number)
    (hbelow : ∀ other ∈ others, ∀ n, offered current other = some n → key n ≤ key number)
    (hbad : (∃ e, offer current entry = .error e) ∨
      ∃ other ∈ others, offered current other = some number) :
    ∃ e, releaseMetadata (.array rows) installed = .error e := by
  cases hselected : releaseMetadata (.array rows) installed with
  | error e => exact ⟨e, rfl⟩
  | ok result =>
    exfalso
    obtain ⟨_, c, hc, hall, hresult⟩ :=
      releaseMetadata_eq_ok.mp (releaseMetadata_perm hperm hselected)
    cases hversion.symm.trans hc
    have hrank : rank current entry = some (key number) := by
      rw [rank, hentry]
      rfl
    cases result with
    | none => cases hentry.symm.trans (hresult entry List.mem_cons_self)
    | some value =>
      obtain ⟨top, highest, hoffer, hrows⟩ := hresult
      have htop : key highest ≤ key number := by
        rcases List.mem_cons.mp hrows.mem with rfl | hother
        · exact (Option.some.inj (hrank.symm.trans hrows.1)).ge
        · exact hbelow top hother highest (offer_eq_ok hoffer)
      rcases hrows.eq_or_lt List.mem_cons_self hrank with rfl | hlt
      · obtain ⟨e, he⟩ | ⟨other, hother, hnumber⟩ := hbad
        · rw [hoffer] at he
          cases he
        · have hlt : key number < key highest := by
            refine hrows.below (List.Perm.refl _) hother ?_
            rw [rank, hnumber]
            rfl
          rw [Option.some.inj (hrank.symm.trans hrows.1)] at hlt
          exact lt_irrefl _ hlt
      · exact absurd hlt (not_lt.mpr htop)

/-- `value` describes the one release of the feed that lies above all others on offer. -/
def Selected (feed : Value) (installed : String) (value : Value) : Prop :=
  ∃ rows current entry number tag, feed = .array rows ∧ version installed = .ok current ∧
    Highest (rank current) rows entry (key number) ∧
    asText (field entry "tag_name") = some tag ∧ version tag = .ok number ∧
    current < number ∧ (stable current = true → stable number = true) ∧
    (∀ other ∈ rows, ∀ n, offered current other = some n →
      (stable n = true → stable number = true) ∧ (stable n = stable number → n ≤ number)) ∧
    Genuine PROJECT ASSET LIMIT tag value

theorem releaseMetadata_array {feed : Value} {result : Option Value}
    (h : releaseMetadata feed installed = .ok result) : ∃ rows, feed = .array rows := by
  unfold releaseMetadata at h
  obtain ⟨_, _, h⟩ := bind_eq_ok.mp h
  cases feed with
  | array rows => exact ⟨rows, rfl⟩
  | _ => cases h

theorem releaseMetadata_selected {feed : Value}
    (h : releaseMetadata feed installed = .ok (some value)) : Selected feed installed value := by
  obtain ⟨rows, rfl⟩ := releaseMetadata_array h
  obtain ⟨_, current, hversion, _, entry, number, hoffer, hrows⟩ := releaseMetadata_eq_ok.mp h
  obtain ⟨tag, htag, hnumber, hnewer, hkind, hgenuine⟩ := offer_genuine hoffer
  refine ⟨rows, current, entry, number, tag, rfl, hversion, hrows, htag, hnumber, hnewer, hkind,
    fun other hother n hn => ?_, hgenuine⟩
  have hrank : rank current other = some (key n) := by
    rw [rank, hn]
    rfl
  exact key_le (hrows.le hother hrank)

theorem releaseMetadata_nothing {feed : Value} (h : releaseMetadata feed installed = .ok none) :
    ∃ rows current, feed = .array rows ∧ version installed = .ok current ∧
      ∀ raw ∈ rows, offered current raw = none := by
  obtain ⟨rows, rfl⟩ := releaseMetadata_array h
  obtain ⟨_, current, hversion, _, hnone⟩ := releaseMetadata_eq_ok.mp h
  exact ⟨rows, current, rfl, hversion, hnone⟩

end Fenix

/-! ## Both lookups -/

/-- The order of a feed does not decide what is selected: the highest release on offer, from the
release path of its project, and no older one in its place. -/
theorem releases_selected :
    (∀ rows rows' : List Value, rows.Perm rows' →
      Launcher.stableRelease (.array rows) = Launcher.stableRelease (.array rows')) ∧
    (∀ feed r, Launcher.stableRelease feed = .ok r → Launcher.Selected feed r) ∧
    (∀ rows entry others number, rows.Perm (entry :: others) →
      Launcher.offered entry = some number →
      (∀ other ∈ others, ∀ n, Launcher.offered other = some n → n ≤ number) →
      ((∃ e, Launcher.releaseMetadata entry = .error e) ∨
        ∃ other ∈ others, Launcher.offered other = some number) →
      ∃ e, Launcher.stableRelease (.array rows) = .error e) ∧
    (∀ rows rows' : List Value, rows.Perm rows' → ∀ installed result,
      Fenix.releaseMetadata (.array rows) installed = .ok result ↔
        Fenix.releaseMetadata (.array rows') installed = .ok result) ∧
    (∀ feed installed value, Fenix.releaseMetadata feed installed = .ok (some value) →
      Fenix.Selected feed installed value) ∧
    (∀ feed installed, Fenix.releaseMetadata feed installed = .ok none →
      ∃ rows current, feed = .array rows ∧ version installed = .ok current ∧
        ∀ raw ∈ rows, Fenix.offered current raw = none) ∧
    (∀ rows entry others installed current number, version installed = .ok current →
      rows.Perm (entry :: others) → Fenix.offered current entry = some number →
      (∀ other ∈ others, ∀ n, Fenix.offered current other = some n →
        Fenix.key n ≤ Fenix.key number) →
      ((∃ e, Fenix.offer current entry = .error e) ∨
        ∃ other ∈ others, Fenix.offered current other = some number) →
      ∃ e, Fenix.releaseMetadata (.array rows) installed = .error e) := by
  refine ⟨fun _ _ => Launcher.stableRelease_perm, fun _ _ => Launcher.stableRelease_selected,
    fun _ _ _ _ => Launcher.stableRelease_refused, fun _ _ hperm _ _ => ?_,
    fun _ _ _ => Fenix.releaseMetadata_selected, fun _ _ => Fenix.releaseMetadata_nothing,
    fun _ _ _ _ _ _ => Fenix.releaseMetadata_refused⟩
  exact ⟨Fenix.releaseMetadata_perm hperm, Fenix.releaseMetadata_perm hperm.symm⟩

/-- Two newer releases of the add-on that are refused for different reasons. -/
def undigested : Value :=
  .object [("draft", .bool false), ("prerelease", .bool false), ("tag_name", .string "v1.2.0"),
    ("assets", .array [.object [("name", .string Fenix.ASSET)]])]

def mislabelled : Value :=
  .object [("draft", .bool false), ("prerelease", .bool true), ("tag_name", .string "v1.3.0"),
    ("assets", .array [.object [("name", .string Fenix.ASSET)]])]

/-- The first of them decides about the message. -/
theorem message_by_order :
    ¬∀ rows rows' : List Value, rows.Perm rows' → ∀ installed,
      Fenix.releaseMetadata (.array rows) installed =
        Fenix.releaseMetadata (.array rows') installed := by
  intro h
  have hsame := h [undigested, mislabelled] [mislabelled, undigested] (List.Perm.swap ..) "1.1.0"
  have hfirst : Fenix.releaseMetadata (.array [undigested, mislabelled]) "1.1.0" =
      .error (.invalid "Ungültige Anfrageparameter.") := rfl
  have hsecond : Fenix.releaseMetadata (.array [mislabelled, undigested]) "1.1.0" =
      .error (.invalid Fenix.INVALID) := rfl
  rw [hfirst, hsecond] at hsame
  exact absurd (Error.invalid.inj (Except.error.inj hsame)) (by decide)

end Flightdeck.Updates
