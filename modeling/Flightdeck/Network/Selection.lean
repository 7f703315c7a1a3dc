import Flightdeck.Network.Policy

/-!
# The selected endpoint

What an endpoint covers, which of two covering endpoints is more specific, and that the loop over
the endpoints selects a most specific one whatever their order.
-/

namespace Flightdeck.Network

open Foundation

/-! ## Coverage -/

/-- How an endpoint's host covers the host of a URL. -/
inductive HostMatch where
  | any
  | suffix (length : Nat)
  | exact
  deriving DecidableEq

/-- Less specific. -/
inductive HostMatch.Below : HostMatch → HostMatch → Prop where
  | any_suffix (n : Nat) : Below .any (.suffix n)
  | any_exact : Below .any .exact
  | suffix_suffix {n m : Nat} (h : n < m) : Below (.suffix n) (.suffix m)
  | suffix_exact (n : Nat) : Below (.suffix n) .exact

inductive CoversHost (url : Url) (authenticatedTitle : Bool) (entry : Json) : HostMatch → Prop where
  | exact (host : Bytes) (htype : entry.stringAt "HostType" = some (utf8 "fqdn"))
      (hhost : entry.stringAt "Host" = some host) (hsame : host.map lower = url.hostAscii) :
      CoversHost url authenticatedTitle entry .exact
  | suffix (host before rest : Bytes) (htype : entry.stringAt "HostType" = some (utf8 "wildcard"))
      (hhost : entry.stringAt "Host" = some host) (hstar : host.map lower = utf8 "*." ++ rest)
      (hrest : rest ≠ [] ∧ (42 : UInt8) ∉ rest) (hbefore : before ≠ [])
      (hends : url.hostAscii = before ++ utf8 "." ++ rest) :
      CoversHost url authenticatedTitle entry (.suffix host.length)
  | any (htype : entry.stringAt "HostType" = some (utf8 "wildcard"))
      (hhost : entry.stringAt "Host" = some (utf8 "*")) (htitle : authenticatedTitle = true) :
      CoversHost url authenticatedTitle entry .any

/-- A path covers itself and what is below it. -/
def BelowPath (url : Url) (path : Bytes) : Prop :=
  path = [] ∨ ∃ rest, url.path = path.map widen ++ rest ∧
    (rest = [] ∨ (path.map widen).getLast? = some 47 ∨ rest.head? = some 47)

inductive CoversPath (url : Url) (entry : Json) : Nat → Prop where
  | all (h : entry.get "Path" = none) : CoversPath url entry 0
  | below (path : Bytes) (h : entry.stringAt "Path" = some path) (hbelow : BelowPath url path) :
      CoversPath url entry path.length

structure Covers (url : Url) (authenticatedTitle : Bool) (entry : Json) (host : HostMatch)
    (path : Nat) : Prop where
  https : entry.stringAt "Protocol" = some (utf8 "https")
  host : CoversHost url authenticatedTitle entry host
  path : CoversPath url entry path

/-- Of all endpoints, none covers the URL by a more specific host, or by the same host and a longer
path. -/
def MostSpecific (url : Url) (authenticatedTitle : Bool) (rows : List Json) (entry : Json) : Prop :=
  entry ∈ rows ∧ ∃ host path, Covers url authenticatedTitle entry host path ∧
    ∀ other ∈ rows, ∀ host' path', Covers url authenticatedTitle other host' path' →
      host'.Below host ∨ (host' = host ∧ path' ≤ path)

/-! ## Scores -/

def HostMatch.score (url : Url) : HostMatch → Nat
  | .any => 0
  | .suffix n => n * 2 - 1
  | .exact => url.hostAscii.length * 2

theorem HostMatch.trichotomy (a b : HostMatch) : a.Below b ∨ a = b ∨ b.Below a := by
  cases a with
  | any =>
    cases b with
    | any => exact .inr (.inl rfl)
    | suffix n => exact .inl (.any_suffix n)
    | exact => exact .inl .any_exact
  | suffix n =>
    cases b with
    | any => exact .inr (.inr (.any_suffix n))
    | suffix m =>
      rcases Nat.lt_trichotomy n m with h | rfl | h
      · exact .inl (.suffix_suffix h)
      · exact .inr (.inl rfl)
      · exact .inr (.inr (.suffix_suffix h))
    | exact => exact .inl (.suffix_exact n)
  | exact =>
    cases b with
    | any => exact .inr (.inr .any_exact)
    | suffix m => exact .inr (.inr (.suffix_exact m))
    | exact => exact .inr (.inl rfl)

theorem utf8_dot : utf8 "." = [46] := by decide

theorem utf8_star : utf8 "*" = [42] := by decide

theorem utf8_star_dot : utf8 "*." = [42, 46] := by decide

/-- Only letters change. -/
theorem lower_eq {c d : UInt8} (hd : d < 65) : lower c = d ↔ c = d := by
  unfold lower
  split
  · rename_i hletter
    constructor
    · rintro rfl
      have h := UInt8.le_iff_toNat_le.mp hletter.1
      have h' := UInt8.le_iff_toNat_le.mp hletter.2
      have hlow := UInt8.lt_iff_toNat_lt.mp hd
      simp at h h' hlow
      omega
    · rintro rfl
      exact absurd hd (UInt8.not_lt.mpr hletter.1)
  · exact Iff.rfl

theorem CoversHost.length_le {url : Url} {title : Bool} {entry : Json} {n : Nat}
    (h : CoversHost url title entry (.suffix n)) : 2 < n ∧ n ≤ url.hostAscii.length := by
  cases h with
  | suffix host before rest htype hhost hstar hrest hbefore hends =>
    have hlength := congrArg List.length hstar
    rw [List.length_map, utf8_star_dot, List.length_append] at hlength
    rw [hends, utf8_dot, List.length_append, List.length_append]
    have hone := List.length_pos_of_ne_nil hbefore
    have hpos := List.length_pos_of_ne_nil hrest.1
    simp only [List.length_cons, List.length_nil] at hlength ⊢
    omega

theorem lower_eq_star {host : Bytes} : host.map lower = utf8 "*" ↔ host = utf8 "*" := by
  rw [utf8_star]
  constructor
  · intro h
    cases host with
    | nil => cases h
    | cons c host =>
      rw [List.map_cons, List.cons.injEq, List.map_eq_nil_iff] at h
      rw [h.2, (lower_eq (by decide)).mp h.1]
  · rintro rfl
    decide

/-- The score counts a wildcard one below the full host of its length. -/
theorem score_lt {url : Url} {title : Bool} {entry entry' : Json} {a b : HostMatch}
    (ha : CoversHost url title entry a) (hb : CoversHost url title entry' b) (h : a.Below b) :
    a.score url < b.score url := by
  have hpos := List.length_pos_of_ne_nil url.host_ne
  cases h with
  | any_suffix n =>
    have hn := hb.length_le
    simp only [HostMatch.score]
    omega
  | any_exact =>
    simp only [HostMatch.score]
    omega
  | suffix_suffix h =>
    have hn := ha.length_le
    simp only [HostMatch.score]
    omega
  | suffix_exact n =>
    have hn := ha.length_le
    simp only [HostMatch.score]
    omega

theorem pathMatches_iff {url : Url} {path : Bytes} :
    pathMatches url path = true ↔ BelowPath url path := by
  unfold pathMatches BelowPath
  rw [Bool.or_eq_true, List.isEmpty_iff]
  apply or_congr Iff.rfl
  generalize path.map widen = wide
  rw [Bool.and_eq_true, List.isPrefixOf_iff_prefix]
  constructor
  · intro h
    obtain ⟨⟨rest, hrest⟩, hbound⟩ := h
    refine ⟨rest, hrest.symm, ?_⟩
    cases rest with
    | nil => exact .inl rfl
    | cons c rest =>
      have hnext : url.path[wide.length]? = some c := by
        rw [← hrest, List.getElem?_append_right le_rfl, Nat.sub_self]
        rfl
      have hlonger : wide.length < url.path.length := by
        rw [← hrest, List.length_append, List.length_cons]
        omega
      by_cases hlast : wide.getLast? = some 47
      · exact .inr (.inl hlast)
      · by_cases hc : c = 47
        · exact .inr (.inr (congrArg some hc))
        · rw [hnext] at hbound
          simp [hlonger, hlast, hc] at hbound
  · intro h
    obtain ⟨rest, hrest, hbound⟩ := h
    refine ⟨⟨rest, hrest.symm⟩, ?_⟩
    rcases hbound with rfl | hlast | hhead
    · rw [List.append_nil] at hrest
      simp [hrest]
    · simp [hlast]
    · cases rest with
      | nil => cases hhead
      | cons c rest =>
        cases hhead
        have hnext : url.path[wide.length]? = some 47 := by
          rw [hrest, List.getElem?_append_right le_rfl, Nat.sub_self]
          rfl
        simp [hnext]

theorem endsWith_iff {value suffix : Bytes} :
    endsWith value suffix = true ↔ ∃ before, before ≠ [] ∧ value = before ++ suffix := by
  unfold endsWith
  rw [Bool.and_eq_true, decide_eq_true_eq, List.isSuffixOf_iff_suffix]
  constructor
  · intro h
    obtain ⟨hlonger, before, hbefore⟩ := h
    refine ⟨before, ?_, hbefore.symm⟩
    rintro rfl
    rw [List.nil_append] at hbefore
    rw [hbefore] at hlonger
    exact lt_irrefl _ hlonger
  · intro h
    obtain ⟨before, hne, rfl⟩ := h
    have hpos := List.length_pos_of_ne_nil hne
    refine ⟨?_, List.suffix_append _ _⟩
    rw [List.length_append]
    omega

/-! ## Verdicts -/

section

variable {url : Url} {title : Bool} {entry : Json} {hr : HResult} {score : Nat}

theorem utf8_wildcard_ne : utf8 "wildcard" ≠ utf8 "fqdn" := by decide

/-- A host that scores covers the URL. -/
theorem coversHost_of_score {type host : Bytes} (htype : entry.stringAt "HostType" = some type)
    (hhost : entry.stringAt "Host" = some host)
    (h : hostScore url title entry.size type (host.map lower) = .ok (some score)) :
    ∃ m, CoversHost url title entry m ∧ score = m.score url := by
  unfold hostScore at h
  split at h
  · rename_i hfqdn
    split at h
    · rename_i hsame
      cases h
      rw [hfqdn] at htype
      refine ⟨.exact, .exact host htype hhost hsame, ?_⟩
      rw [hsame]
      rfl
    · cases h
  · split at h
    · rename_i hbare
      split at h
      · cases h
      · split at h
        · rename_i htitle
          cases h
          rw [hbare.1] at htype
          refine ⟨.any, .any htype ?_ htitle, rfl⟩
          rw [hhost, lower_eq_star.mp hbare.2]
        · cases h
    · split at h
      · rename_i hwild
        split at h
        · rename_i hends
          cases h
          obtain ⟨hwildcard, hlonger, htake, hnostar⟩ := hwild
          obtain ⟨before, hbefore, hvalue⟩ := endsWith_iff.mp hends
          rw [hwildcard] at htype
          have hsplit : host.map lower = utf8 "*." ++ (host.map lower).drop 2 := by
            rw [← htake, List.take_append_drop]
          generalize (host.map lower).drop 2 = rest at hsplit
          rw [hsplit, utf8_star_dot] at hlonger hnostar hvalue
          refine ⟨.suffix host.length, .suffix host before rest htype hhost hsplit ⟨?_, ?_⟩ hbefore
            ?_, ?_⟩
          · rintro rfl
            exact absurd hlonger (by decide)
          · exact fun hmem => hnostar (List.mem_cons_of_mem _ hmem)
          · rw [utf8_dot, List.append_assoc]
            exact hvalue
          · simp only [HostMatch.score, List.length_map]
        · cases h
      · cases h

/-- Conversely, unless the entry is refused. -/
theorem score_of_coversHost {type host : Bytes} {m : HostMatch} {v : Option Nat}
    (htype : entry.stringAt "HostType" = some type) (hhost : entry.stringAt "Host" = some host)
    (hm : CoversHost url title entry m)
    (h : hostScore url title entry.size type (host.map lower) = .ok v) : v = some (m.score url) := by
  cases hm with
  | exact host' htype' hhost' hsame =>
    rw [htype'] at htype
    rw [hhost'] at hhost
    cases htype
    cases hhost
    rw [hostScore, if_pos rfl, if_pos hsame, hsame] at h
    cases h
    rfl
  | suffix host' before rest htype' hhost' hstar hrest hbefore hends =>
    rw [htype'] at htype
    rw [hhost'] at hhost
    cases htype
    cases hhost
    have hpos := List.length_pos_of_ne_nil hrest.1
    have hlong : 2 < (host.map lower).length := by
      rw [hstar, utf8_star_dot, List.length_append]
      simp only [List.length_cons, List.length_nil]
      omega
    have hbare : ¬(utf8 "wildcard" = utf8 "wildcard" ∧ host.map lower = utf8 "*") := by
      rintro ⟨-, hbare⟩
      rw [hbare] at hlong
      exact absurd hlong (by decide)
    have hwild : utf8 "wildcard" = utf8 "wildcard" ∧ 2 < (host.map lower).length ∧
        (host.map lower).take 2 = utf8 "*." ∧ (42 : UInt8) ∉ (host.map lower).drop 1 := by
      refine ⟨rfl, hlong, ?_, ?_⟩
      · rw [hstar]
        rfl
      · rw [hstar, utf8_star_dot]
        intro hmem
        rcases List.mem_cons.mp hmem with hdot | hmem
        · cases hdot
        · exact hrest.2 hmem
    have hmatch : endsWith url.hostAscii ((host.map lower).drop 1) = true := by
      refine endsWith_iff.mpr ⟨before, hbefore, ?_⟩
      rw [hends, hstar, utf8_star_dot, utf8_dot, List.append_assoc]
      rfl
    rw [hostScore, if_neg utf8_wildcard_ne, if_neg hbare, if_pos hwild, if_pos hmatch,
      List.length_map] at h
    cases h
    rfl
  | any htype' hhost' htitle =>
    rw [htype'] at htype
    rw [hhost'] at hhost
    cases htype
    cases hhost
    rw [hostScore, if_neg utf8_wildcard_ne, if_pos ⟨rfl, lower_eq_star.mpr rfl⟩, if_pos htitle] at h
    split at h
    · cases h
    · cases h
      rfl

theorem stringAt_eq {value : Json} {key : String} {text : Bytes} :
    value.stringAt key = some text ↔ value.get key = some (.string text) := by
  unfold Json.stringAt
  split
  · rename_i text' h
    rw [h, Option.some.injEq, Option.some.injEq, Json.string.injEq]
  · rename_i hnot
    constructor
    · intro h
      cases h
    · exact fun h => absurd h (hnot text)

/-- The loop gives an endpoint a rank exactly when it covers the URL, and the rank is its coverage. -/
theorem covers_of_verdict {rank : Rank} (h : verdict url title entry = .ok (some rank)) :
    ∃ m n, Covers url title entry m n ∧ rank = toLex (m.score url, n) := by
  unfold verdict at h
  split at h
  · rename_i protocol host type hprotocol hhost htype
    split at h
    · cases h
    · rename_i hhttps
      split at h
      · cases h
      · cases h
      · rename_i score hscore
        obtain ⟨m, hm, rfl⟩ := coversHost_of_score htype hhost hscore
        rw [not_not.mp hhttps] at hprotocol
        split at h
        · rename_i hpath
          cases h
          exact ⟨m, 0, ⟨hprotocol, hm, .all hpath⟩, rfl⟩
        · rename_i path hpath
          split at h
          · rename_i hmatches
            cases h
            exact ⟨m, path.length, ⟨hprotocol, hm,
              .below path (stringAt_eq.mpr hpath) (pathMatches_iff.mp hmatches)⟩, rfl⟩
          · cases h
        · cases h
  · cases h

theorem verdict_of_covers {m : HostMatch} {n : Nat} {v : Option Rank}
    (hcovers : Covers url title entry m n) (h : verdict url title entry = .ok v) :
    v = some (toLex (m.score url, n)) := by
  unfold verdict at h
  split at h
  · rename_i protocol host type hprotocol hhost htype
    have hhttps := hcovers.https
    rw [hprotocol, Option.some.injEq] at hhttps
    rw [if_neg (not_not.mpr hhttps)] at h
    split at h
    · cases h
    · rename_i hscore
      cases score_of_coversHost htype hhost hcovers.host hscore
    · rename_i score hscore
      cases score_of_coversHost htype hhost hcovers.host hscore
      cases hcovers.path with
      | all hpath =>
        rw [hpath] at h
        cases h
        rfl
      | below path hpath hbelow =>
        rw [stringAt_eq.mp hpath] at h
        dsimp only at h
        rw [if_pos (pathMatches_iff.mpr hbelow)] at h
        cases h
        rfl
  · cases h

/-! ## The loop -/

/-- The endpoints that match, with their ranks. -/
def candidates (url : Url) (title : Bool) (rows : List Json) : List (Json × Rank) :=
  rows.filterMap fun entry =>
    match verdict url title entry with
    | .ok (some rank) => some (entry, rank)
    | _ => none

/-- Every endpoint gets as far as a verdict. -/
def Readable (url : Url) (title : Bool) (rows : List Json) : Prop :=
  ∀ entry ∈ rows, ∃ v, verdict url title entry = .ok v

variable {rows rows' : List Json} {best : Option (Best Json Rank)}

theorem bestMatch_of_readable (h : Readable url title rows) :
    bestMatch url title best rows =
      .ok ((candidates url title rows).foldl (fun b row => Best.consider Json.same b row.1 row.2)
        best) := by
  induction rows generalizing best with
  | nil => rfl
  | cons entry rows ih =>
    have hrows : Readable url title rows := fun other hother => h other (.tail _ hother)
    obtain ⟨v, hv⟩ := h entry List.mem_cons_self
    rw [bestMatch, hv]
    cases v with
    | none =>
      rw [candidates, List.filterMap_cons, hv]
      exact ih hrows
    | some rank =>
      rw [candidates, List.filterMap_cons, hv]
      exact ih hrows

theorem bestMatch_of_not_readable (h : ¬Readable url title rows) :
    ∃ hr, bestMatch url title best rows = .error hr := by
  induction rows generalizing best with
  | nil => exact absurd (fun _ hentry => nomatch hentry) h
  | cons entry rows ih =>
    rw [bestMatch]
    cases hv : verdict url title entry with
    | error hr => exact ⟨hr, rfl⟩
    | ok v =>
      have hrows : ¬Readable url title rows := by
        intro hrows
        apply h
        intro other hother
        rcases List.mem_cons.mp hother with rfl | hother
        · exact ⟨v, hv⟩
        · exact hrows other hother
      cases v with
      | none => exact ih hrows
      | some rank => exact ih hrows

theorem mem_candidates {row : Json × Rank} :
    row ∈ candidates url title rows ↔ row.1 ∈ rows ∧ verdict url title row.1 = .ok (some row.2) := by
  unfold candidates
  rw [List.mem_filterMap]
  constructor
  · intro h
    obtain ⟨entry, hentry, hrow⟩ := h
    split at hrow
    · rename_i rank hrank
      cases hrow
      exact ⟨hentry, hrank⟩
    · cases hrow
  · intro h
    refine ⟨row.1, h.1, ?_⟩
    rw [h.2]

theorem readable_perm (h : rows.Perm rows') : Readable url title rows ↔ Readable url title rows' := by
  unfold Readable
  simp only [h.mem_iff]

theorem hostScore_error {type host : Bytes} {size : Nat}
    (h : hostScore url title size type host = .error hr) : hr = E_NOTIMPL := by
  unfold hostScore at h
  split at h
  · cases h
  · split at h
    · split at h
      · cases h
        rfl
      · cases h
    · split at h
      · cases h
      · cases h
        rfl

theorem verdict_error (h : verdict url title entry = .error hr) :
    hr = E_NOTIMPL ∨ hr = INVALID_DATA := by
  unfold verdict at h
  split at h
  · split at h
    · cases h
    · split at h
      · rename_i hscore
        cases h
        exact .inl (hostScore_error hscore)
      · cases h
      · split at h
        · cases h
        · cases h
        · cases h
          exact .inr rfl
  · cases h
    exact .inr rfl

theorem bestMatch_error (h : bestMatch url title best rows = .error hr) :
    hr = E_NOTIMPL ∨ hr = INVALID_DATA := by
  induction rows generalizing best with
  | nil => cases h
  | cons entry rows ih =>
    rw [bestMatch] at h
    split at h
    · rename_i hverdict
      cases h
      exact verdict_error hverdict
    · exact ih h
    · exact ih h

/-- The document's refusals rest on its certificates. -/
theorem refusal_set {document inner entry : Json} :
    refusal (document.set "EndPoints" inner) entry = refusal document entry := by
  have hcerts : certs (document.set "EndPoints" inner) = certs document := by
    unfold certs
    rw [Json.get_set_of_ne (by decide)]
  unfold refusal
  rw [hcerts]

theorem get_of_endPoints {document : Json} (h : endPoints document = some rows) :
    document.get "EndPoints" = some (.array rows) ∧ rows.length ≤ 4096 := by
  unfold endPoints at h
  split at h
  · rename_i hget
    split at h
    · rename_i hle
      cases h
      exact ⟨hget, hle⟩
    · cases h
  · cases h

theorem endPoints_set {document : Json} (h : endPoints document = some rows)
    (hlength : rows'.length ≤ 4096) :
    endPoints (document.set "EndPoints" (.array rows')) = some rows' := by
  rw [endPoints, Json.get_set_self (Option.isSome_of_eq_some (get_of_endPoints h).1)]
  exact if_pos hlength

/-! ## The order of the endpoints -/

/-- A malformed document is reported as such, with one of several codes. -/
def Malformed (s : Selection) : Prop := ∃ hr, failed hr = true ∧ s = .refuse hr .invalid

/-- Values of different kinds, such as `0` and `0.0`, may compare equal. -/
def SameIsEqual (rows : List Json) : Prop := ∀ a ∈ rows, ∀ b ∈ rows, a.same b = true → a = b

theorem candidates_same (h : SameIsEqual rows) (row : Json × Rank)
    (hrow : row ∈ candidates url title rows) (row' : Json × Rank)
    (hrow' : row' ∈ candidates url title rows) : row.1.same row'.1 = true ↔ row.1 = row'.1 := by
  constructor
  · exact h _ (mem_candidates.mp hrow).1 _ (mem_candidates.mp hrow').1
  · intro heq
    rw [heq]
    exact Json.same_refl _

/-- What a best match leads to depends on its rank, on whether it is ambiguous, and on the endpoint
only where it is not. -/
theorem finish_congr {document : Json} {b b' : Best Json Rank} (hrank : b.rank = b'.rank)
    (hambiguous : b.ambiguous = b'.ambiguous)
    (hvalue : b.ambiguous = false → b.value = b'.value) : finish document b = finish document b' := by
  unfold finish
  rw [← hambiguous]
  by_cases h : b.ambiguous = true
  · rw [if_pos h, if_pos h]
  · rw [if_neg h, if_neg h, hvalue (Bool.eq_false_iff.mpr h), hrank]

theorem selectPolicy_of_readable {document : Json} (hrows : endPoints document = some rows)
    (h : Readable url title rows) :
    selectPolicy document url title =
      (Foundation.best Json.same (candidates url title rows)).elim (.refuse NOT_FOUND .unmatched)
        (finish document) := by
  unfold selectPolicy
  rw [hrows]
  dsimp only
  rw [bestMatch_of_readable h]
  unfold Foundation.best
  cases (candidates url title rows).foldl (fun b row => Best.consider Json.same b row.1 row.2) none
  · rfl
  · rfl

theorem selectPolicy_of_not_readable {document : Json} (hrows : endPoints document = some rows)
    (h : ¬Readable url title rows) : Malformed (selectPolicy document url title) := by
  obtain ⟨hr, hbest⟩ : ∃ hr, bestMatch url title none rows = .error hr :=
    bestMatch_of_not_readable h
  refine ⟨hr, ?_, ?_⟩
  · rcases bestMatch_error hbest with rfl | rfl
    · decide
    · decide
  · unfold selectPolicy
    rw [hrows]
    dsimp only
    rw [hbest]

theorem selectPolicy_perm {document : Json} (hrows : endPoints document = some rows)
    (hperm : rows.Perm rows') (hsame : SameIsEqual rows) :
    selectPolicy document url title =
        selectPolicy (document.set "EndPoints" (.array rows')) url title ∨
      (Malformed (selectPolicy document url title) ∧
        Malformed (selectPolicy (document.set "EndPoints" (.array rows')) url title)) := by
  have hrows' := endPoints_set hrows (hperm.length_eq ▸ (get_of_endPoints hrows).2)
  have hfinish : ∀ b, finish (document.set "EndPoints" (.array rows')) b = finish document b := by
    intro b
    unfold finish
    rw [refusal_set]
  by_cases hread : Readable url title rows
  · left
    rw [selectPolicy_of_readable hrows hread,
      selectPolicy_of_readable hrows' ((readable_perm hperm).mp hread)]
    have hcandidates : (candidates url title rows).Perm (candidates url title rows') :=
      hperm.filterMap _
    cases hbest : Foundation.best Json.same (candidates url title rows) with
    | none =>
      rw [best_eq_none] at hbest
      rw [hbest] at hcandidates
      rw [← hcandidates.nil_eq]
      rfl
    | some b =>
      cases hbest' : Foundation.best Json.same (candidates url title rows') with
      | none =>
        rw [best_eq_none] at hbest'
        rw [hbest'] at hcandidates
        rw [hcandidates.eq_nil] at hbest
        cases hbest
      | some b' =>
        obtain ⟨hrank, hambiguous, hvalue⟩ :=
          best_perm hcandidates (candidates_same hsame) hbest hbest'
        rw [Option.elim, Option.elim, hfinish]
        exact finish_congr hrank hambiguous hvalue
  · right
    refine ⟨selectPolicy_of_not_readable hrows hread, selectPolicy_of_not_readable hrows' ?_⟩
    exact fun h => hread ((readable_perm hperm).mpr h)

/-- A success rests on the unambiguous best match. -/
theorem best_of_selected {document entry : Json} (hrows : endPoints document = some rows)
    (h : (selectPolicy document url title).endpoint = some entry) :
    Readable url title rows ∧ ∃ b : Best Json Rank, b.value = entry ∧ b.ambiguous = false ∧
      Foundation.best Json.same (candidates url title rows) = some b := by
  by_cases hread : Readable url title rows
  · rw [selectPolicy_of_readable hrows hread] at h
    cases hbest : Foundation.best Json.same (candidates url title rows) with
    | none =>
      rw [hbest] at h
      cases h
    | some b =>
      rw [hbest, Option.elim, finish] at h
      split at h
      · cases h
      · rename_i hunique
        split at h
        · cases h
        · cases h
          exact ⟨hread, b, rfl, Bool.eq_false_iff.mpr hunique, rfl⟩
  · obtain ⟨hr, -, hrefuse⟩ := selectPolicy_of_not_readable hrows hread
    rw [hrefuse] at h
    cases h

theorem selected_mostSpecific {document entry : Json} (hrows : endPoints document = some rows)
    (h : (selectPolicy document url title).endpoint = some entry) :
    MostSpecific url title rows entry := by
  obtain ⟨hread, b, rfl, -, hbest⟩ := best_of_selected hrows h
  have hisBest := best_isBest hbest
  obtain ⟨hmem, hverdict⟩ := mem_candidates.mp hisBest.mem
  obtain ⟨m, n, hcovers, hrank⟩ := covers_of_verdict hverdict
  refine ⟨hmem, m, n, hcovers, fun other hother m' n' hcovers' => ?_⟩
  obtain ⟨v, hv⟩ := hread other hother
  rw [verdict_of_covers hcovers' hv] at hv
  have hle := hisBest.le (other, toLex (m'.score url, n')) (mem_candidates.mpr ⟨hother, hv⟩)
  dsimp only at hrank hle
  rw [hrank, Prod.Lex.toLex_le_toLex] at hle
  dsimp only at hle
  rcases HostMatch.trichotomy m' m with hbelow | rfl | habove
  · exact .inl hbelow
  · refine .inr ⟨rfl, ?_⟩
    rcases hle with hlt | hle
    · exact absurd hlt (lt_irrefl _)
    · exact hle.2
  · have hlt := score_lt hcovers.host hcovers'.host habove
    omega

/-! ## Combined policies -/

/-- A refusal allows nothing, and `NOT_FOUND` says that nothing matched. -/
inductive Reported : Selection → Prop where
  | refuse (hr : HResult) (status : Status) (hfailed : failed hr = true)
      (hstatus : hr = NOT_FOUND ↔ status = .unmatched) : Reported (.refuse hr status)
  | success (s : Selection) (hr : s.hr = S_OK)
      (hflags : s.enabledHttpSecurityProtocolFlags = SECURE_PROTOCOL_TLS1_2) : Reported s

theorem reported_invalid (h : hr = E_NOTIMPL ∨ hr = INVALID_DATA) :
    Reported (.refuse hr .invalid) := by
  rcases h with rfl | rfl
  · exact .refuse _ _ (by decide) (by decide)
  · exact .refuse _ _ (by decide) (by decide)

theorem tlsRefusal_reported {status : Status} (h : tlsRefusal entry = some (hr, status)) :
    Reported (.refuse hr status) := by
  unfold tlsRefusal at h
  split at h
  · cases h
  · split at h
    · cases h
    · cases h
      exact .refuse _ _ (by decide) (by decide)
  · cases h
    exact reported_invalid (.inr rfl)

theorem refusal_reported {document : Json} {status : Status}
    (h : refusal document entry = some (hr, status)) : Reported (.refuse hr status) := by
  unfold refusal at h
  split at h
  · exact tlsRefusal_reported h
  · split at h
    · cases h
      exact reported_invalid (.inr rfl)
    · split at h
      · cases h
        exact reported_invalid (.inr rfl)
      · split at h
        · cases h
          exact .refuse _ _ (by decide) (by decide)
        · exact tlsRefusal_reported h
  · cases h
    exact reported_invalid (.inr rfl)

theorem selectPolicy_reported (document : Json) (url : Url) (title : Bool) :
    Reported (selectPolicy document url title) := by
  unfold selectPolicy
  split
  · exact reported_invalid (.inr rfl)
  · split
    · rename_i hbest
      exact reported_invalid (bestMatch_error hbest)
    · exact .refuse _ _ (by decide) (by decide)
    · unfold finish
      split
      · exact .refuse _ _ (by decide) (by decide)
      · split
        · rename_i hrefusal
          exact refusal_reported hrefusal
        · exact .success _ rfl rfl

/-- A refusal of the defaults, unless they have no endpoint for the URL, is final. -/
theorem combined_failed {defaults : Json} (titleDocument : Option Json)
    (hfailed : failed (selectPolicy defaults url false).hr = true)
    (hstatus : (selectPolicy defaults url false).status ≠ .unmatched) :
    failed (selectCombinedPolicy defaults titleDocument url).hr = true := by
  have hrefuses : (selectPolicy defaults url false).refuses = true := by
    have hreported := selectPolicy_reported defaults url false
    generalize selectPolicy defaults url false = base at hreported hfailed hstatus
    cases hreported with
    | refuse hr status hfailed' hunmatched =>
      have hne : hr ≠ NOT_FOUND := fun h => hstatus (hunmatched.mp h)
      simp only [Selection.refuses, Selection.refuse, hfailed', Bool.true_and, bne_iff_ne]
      exact hne
    | success base hr hflags =>
      rw [hr] at hfailed
      exact absurd hfailed (by decide)
  rw [selectCombinedPolicy, combine, if_pos hrefuses]
  exact hfailed

theorem combinedFlags_le {base extra : Selection} (hbase : failed base.hr = false) :
    combinedFlags base extra &&& base.enabledHttpSecurityProtocolFlags = combinedFlags base extra := by
  unfold combinedFlags
  rw [hbase]
  split
  · exact UInt32.and_self
  · rw [if_neg Bool.false_ne_true, UInt32.and_assoc, UInt32.and_self]

/-- Where the defaults allow a request, the title cannot add a protocol. -/
theorem combined_flags_le {defaults : Json} (titleDocument : Option Json)
    (hbase : failed (selectPolicy defaults url false).hr = false) :
    (selectCombinedPolicy defaults titleDocument url).enabledHttpSecurityProtocolFlags &&&
        (selectPolicy defaults url false).enabledHttpSecurityProtocolFlags =
      (selectCombinedPolicy defaults titleDocument url).enabledHttpSecurityProtocolFlags := by
  unfold selectCombinedPolicy combine
  split
  · exact UInt32.zero_and
  · split
    · exact UInt32.zero_and
    · split
      · exact UInt32.zero_and
      · split
        · exact UInt32.zero_and
        · exact combinedFlags_le hbase

end

end Flightdeck.Network
