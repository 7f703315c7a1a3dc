import Flightdeck.Network.Selection

/-!
# Accepted title documents

What is left of a title document that passes the checks: no request can find it malformed, and two
of its endpoints that are as specific for a request are the same.
-/

namespace Flightdeck.Network

open Foundation

/-! ## Values that compare equal -/

/-- Two fields, both missing or comparing equal. -/
def sameField : Option Json → Option Json → Prop
  | none, none => True
  | some a, some b => a.same b = true
  | _, _ => False

theorem sameField_lookup {as bs : List (String × Json)} (h : sameFields as bs = true)
    (key : String) : sameField (as.lookup key) (bs.lookup key) := by
  induction as generalizing bs with
  | nil =>
    cases bs with
    | nil => trivial
    | cons b bs => cases h
  | cons a as ih =>
    cases bs with
    | nil => cases h
    | cons b bs =>
      rw [sameFields, Bool.and_eq_true, Bool.and_eq_true, beq_iff_eq] at h
      obtain ⟨⟨hkey, hvalue⟩, hrest⟩ := h
      rw [List.lookup_cons, List.lookup_cons, hkey]
      split
      · exact hvalue
      · exact ih hrest

theorem sameField_get {a b : Json} (h : a.same b = true) (key : String) :
    sameField (a.get key) (b.get key) := by
  cases a with
  | object fields =>
    cases b with
    | object fields' =>
      rw [Json.same] at h
      exact sameField_lookup h key
    | _ => cases h
  | _ =>
    cases b with
    | object fields => cases h
    | _ => trivial

theorem same_string {text : Bytes} {b : Json} (h : (Json.string text).same b = true) :
    b = .string text := by
  cases b with
  | string text' =>
    rw [Json.same, beq_iff_eq] at h
    rw [h]
  | _ => cases h

theorem stringAt_of_same {a b : Json} (h : a.same b = true) {key : String} {text : Bytes}
    (ha : a.stringAt key = some text) : b.stringAt key = some text := by
  have hfield := sameField_get h key
  rw [stringAt_eq] at ha ⊢
  rw [ha] at hfield
  cases hb : b.get key with
  | none =>
    rw [hb] at hfield
    exact hfield.elim
  | some value =>
    rw [hb] at hfield
    rw [same_string hfield]

variable {url : Url} {title : Bool}

/-- Endpoints that compare equal cover the same requests. -/
theorem covers_of_same {a b : Json} {m : HostMatch} {n : Nat} (h : a.same b = true)
    (ha : Covers url title a m n) : Covers url title b m n := by
  refine ⟨stringAt_of_same h ha.https, ?_, ?_⟩
  · cases ha.host with
    | exact host htype hhost hsame =>
      exact .exact host (stringAt_of_same h htype) (stringAt_of_same h hhost) hsame
    | suffix host before rest htype hhost hstar hrest hbefore hends =>
      exact .suffix host before rest (stringAt_of_same h htype) (stringAt_of_same h hhost) hstar
        hrest hbefore hends
    | any htype hhost htitle =>
      exact .any (stringAt_of_same h htype) (stringAt_of_same h hhost) htitle
  · cases ha.path with
    | all hpath =>
      have hfield := sameField_get h "Path"
      rw [hpath] at hfield
      cases hb : b.get "Path" with
      | none => exact .all hb
      | some value =>
        rw [hb] at hfield
        exact hfield.elim
    | below path hpath hbelow => exact .below path (stringAt_of_same h hpath) hbelow

/-! ## Checked endpoints -/

section

variable {pins : Option (List Json)} {entry : Json} {protocol type host path key : Bytes}

/-- An endpoint of a route, as it was checked. -/
structure Routed (pins : Option (List Json)) (entry : Json) (protocol type host path : Bytes) :
    Prop where
  hasProtocol : entry.stringAt "Protocol" = some protocol
  hasType : entry.stringAt "HostType" = some type
  hasHost : entry.stringAt "Host" = some host
  known : protocol = utf8 "https" ∨ protocol = utf8 "http"
  concrete : ¬(type = utf8 "wildcard" ∧ host = utf8 "*")
  checkedHost : checkHost type host = .ok ()
  checkedPath : checkPath entry = .ok path
  checkedTls : checkTls entry = .ok ()
  checkedPins : checkPins pins entry = .ok ()

theorem checkRoute_ok {checked : Checked}
    (h : checkRoute pins entry protocol type host = .ok checked) :
    ∃ path, checked = .route (routeKey protocol type host path) ∧ checkHost type host = .ok () ∧
      checkPath entry = .ok path ∧ checkTls entry = .ok () ∧ checkPins pins entry = .ok () := by
  unfold checkRoute at h
  cases hhost : checkHost type host with
  | error hr =>
    rw [hhost] at h
    cases h
  | ok _ =>
    cases hpath : checkPath entry with
    | error hr =>
      rw [hhost, hpath] at h
      cases h
    | ok path =>
      cases htls : checkTls entry with
      | error hr =>
        rw [hhost, hpath, htls] at h
        cases h
      | ok _ =>
        cases hpins : checkPins pins entry with
        | error hr =>
          rw [hhost, hpath, htls, hpins] at h
          cases h
        | ok _ =>
          rw [hhost, hpath, htls, hpins] at h
          cases h
          exact ⟨path, rfl, rfl, rfl, rfl, rfl⟩

/-- The bare fallback, as it was checked. -/
structure Fallback (entry : Json) : Prop where
  hasProtocol : entry.stringAt "Protocol" = some (utf8 "https")
  hasType : entry.stringAt "HostType" = some (utf8 "wildcard")
  hasHost : entry.stringAt "Host" = some (utf8 "*")
  size : entry.size = 3

theorem checkEndPoint_ok {checked : Checked} (h : checkEndPoint pins entry = .ok checked) :
    checked = .dropped ∨ (checked = .fallback ∧ Fallback entry) ∨
      ∃ protocol type host path, checked = .route (routeKey protocol type host path) ∧
        Routed pins entry protocol type host path := by
  unfold checkEndPoint at h
  split at h
  · split at h
    · cases h
    · split at h
      · rename_i protocol type host hprotocol htype hhost
        split at h
        · cases h
        · rename_i hknown
          split at h
          · rename_i hbare
            split at h
            · cases h
            · rename_i hsize
              cases h
              split
              · rename_i hhttps
                rw [hhttps] at hprotocol
                rw [hbare.1] at htype
                rw [hbare.2] at hhost
                exact .inr (.inl ⟨rfl, hprotocol, htype, hhost, not_not.mp hsize⟩)
              · exact .inl rfl
          · rename_i hconcrete
            obtain ⟨path, hchecked, hpath⟩ := checkRoute_ok h
            refine .inr (.inr ⟨protocol, type, host, path, hchecked, hprotocol, htype, hhost, ?_,
              hconcrete, hpath.1, hpath.2.1, hpath.2.2.1, hpath.2.2.2⟩)
            by_cases hhttps : protocol = utf8 "https"
            · exact .inl hhttps
            · exact .inr (by_contra fun hhttp => hknown ⟨hhttps, hhttp⟩)
      · cases h
  · cases h

/-- The entry is of the route with that key. -/
def hasKey (pins : Option (List Json)) (key : Bytes) (entry : Json) : Bool :=
  match checkEndPoint pins entry with
  | .ok (.route key') => key' == key
  | _ => false

theorem hasKey_iff : hasKey pins key entry = true ↔ checkEndPoint pins entry = .ok (.route key) := by
  unfold hasKey
  split
  · rename_i key' h
    rw [h, beq_iff_eq, Except.ok.injEq, Checked.route.injEq]
  · rename_i hnot
    constructor
    · intro h
      cases h
    · exact fun h => absurd h (hnot key)

/-- A kept entry is the fallback, or compares equal to the first of its route. -/
def Kept (pins : Option (List Json)) (first : Bytes → Option Json) (entry : Json) : Prop :=
  checkEndPoint pins entry = .ok .fallback ∨
    ∃ key stored, checkEndPoint pins entry = .ok (.route key) ∧ first key = some stored ∧
      stored.same entry = true

/-- The first entry of a route: the one already stored, or the first one to come. -/
def firstOf (pins : Option (List Json)) (routes : List (Bytes × Json)) (rows : List Json)
    (key : Bytes) : Option Json :=
  (routes.lookup key).or (rows.find? (hasKey pins key))

theorem firstOf_skip {routes : List (Bytes × Json)} {rows : List Json}
    (h : ∀ key, checkEndPoint pins entry = .ok (.route key) → (routes.lookup key).isSome) :
    firstOf pins routes (entry :: rows) = firstOf pins routes rows := by
  funext key
  unfold firstOf
  by_cases hkey : hasKey pins key entry = true
  · obtain ⟨stored, hstored⟩ := Option.isSome_iff_exists.mp (h key (hasKey_iff.mp hkey))
    rw [hstored, Option.some_or, Option.some_or]
  · rw [List.find?_cons_of_neg hkey]

theorem firstOf_store {routes : List (Bytes × Json)} {rows : List Json}
    (h : checkEndPoint pins entry = .ok (.route key)) (hnew : routes.lookup key = none) :
    firstOf pins routes (entry :: rows) = firstOf pins ((key, entry) :: routes) rows := by
  funext key'
  unfold firstOf
  rw [List.lookup_cons]
  by_cases heq : key' = key
  · rw [heq, hnew, beq_self_eq_true, List.find?_cons_of_pos (hasKey_iff.mpr h)]
    rfl
  · rw [beq_eq_false_iff_ne.mpr heq]
    have hneg : ¬hasKey pins key' entry = true := by
      rw [hasKey_iff, h, Except.ok.injEq, Checked.route.injEq]
      exact fun hkey => heq hkey.symm
    rw [List.find?_cons_of_neg hneg]

theorem map_cons_ok {x : Except HResult (List Json)} {kept : List Json}
    (h : x.map (entry :: ·) = .ok kept) : ∃ rest, x = .ok rest ∧ kept = entry :: rest := by
  cases x with
  | error hr => cases h
  | ok rest =>
    cases h
    exact ⟨rest, rfl, rfl⟩

/-- The entries kept after one more, which is kept itself. -/
theorem kept_cons {rows kept rest : List Json} {first first' : Bytes → Option Json}
    (h : rest.Sublist rows ∧ ∀ other ∈ rest, Kept pins first' other) (heq : kept = entry :: rest)
    (hfirst : first = first') (hentry : Kept pins first entry) :
    kept.Sublist (entry :: rows) ∧ ∀ other ∈ kept, Kept pins first other := by
  subst heq hfirst
  refine ⟨h.1.cons_cons entry, fun other hother => ?_⟩
  rcases List.mem_cons.mp hother with rfl | hother
  · exact hentry
  · exact h.2 other hother

theorem checkEndPoints_ok {routes : List (Bytes × Json)} {rows kept : List Json}
    (h : checkEndPoints pins routes rows = .ok kept) :
    kept.Sublist rows ∧ ∀ entry ∈ kept, Kept pins (firstOf pins routes kept) entry := by
  induction rows generalizing routes kept with
  | nil =>
    cases h
    exact ⟨.slnil, fun _ hentry => nomatch hentry⟩
  | cons entry rows ih =>
    rw [checkEndPoints] at h
    split at h
    · cases h
    · obtain ⟨hsub, hkept⟩ := ih h
      exact ⟨hsub.cons entry, hkept⟩
    · rename_i hfallback
      obtain ⟨rest, hrest, heq⟩ := map_cons_ok h
      refine kept_cons (ih hrest) heq ?_ (.inl hfallback)
      rw [heq]
      apply firstOf_skip
      intro key hkey
      rw [hfallback] at hkey
      cases hkey
    · rename_i key hroute
      split at h
      · rename_i found hfound
        split at h
        · rename_i hsame
          obtain ⟨rest, hrest, heq⟩ := map_cons_ok h
          refine kept_cons (ih hrest) heq ?_ (.inr ⟨key, found, hroute, ?_, hsame⟩)
          · rw [heq]
            apply firstOf_skip
            intro key' hkey
            rw [hroute] at hkey
            cases hkey
            rw [hfound]
            rfl
          · rw [firstOf, hfound, Option.some_or]
        · cases h
      · rename_i hnew
        obtain ⟨rest, hrest, heq⟩ := map_cons_ok h
        refine kept_cons (ih hrest) heq ?_ (.inr ⟨key, entry, hroute, ?_, Json.same_refl entry⟩)
        · rw [heq]
          exact firstOf_store hroute hnew
        · rw [heq, firstOf, hnew, Option.none_or,
            List.find?_cons_of_pos (hasKey_iff.mpr hroute)]

/-! ## Kept endpoints are readable -/

theorem mem_label {host : Bytes} {c : UInt8} (h : c ∈ host) :
    c = 46 ∨ ∃ label ∈ host.splitOn 46, c ∈ label := by
  induction host with
  | nil => cases h
  | cons d host ih =>
    rw [List.splitOn_cons_eq_if_modifyHead]
    split
    · rename_i hdot
      rcases List.mem_cons.mp h with rfl | h
      · exact .inl (beq_iff_eq.mp hdot)
      · rcases ih h with hdot | ⟨label, hlabel, hc⟩
        · exact .inl hdot
        · exact .inr ⟨label, List.mem_cons_of_mem _ hlabel, hc⟩
    · cases hsplit : host.splitOn 46 with
      | nil => exact absurd hsplit (List.splitOn_ne_nil _ _)
      | cons first labels =>
        rw [hsplit] at ih
        rw [List.modifyHead_cons]
        rcases List.mem_cons.mp h with rfl | h
        · exact .inr ⟨_, List.mem_cons_self, List.mem_cons_self⟩
        · rcases ih h with hdot | ⟨label, hlabel, hc⟩
          · exact .inl hdot
          · rcases List.mem_cons.mp hlabel with rfl | hlabel
            · exact .inr ⟨_, List.mem_cons_self, List.mem_cons_of_mem _ hc⟩
            · exact .inr ⟨label, List.mem_cons_of_mem _ hlabel, hc⟩

theorem star_notMem_of_valid (h : validPolicyHost host = true) : (42 : UInt8) ∉ host := by
  intro hstar
  rw [validPolicyHost, Bool.and_eq_true, List.all_eq_true] at h
  rcases mem_label hstar with hdot | ⟨label, hlabel, hmem⟩
  · cases hdot
  · have hvalid := h.2 label hlabel
    simp only [validLabel, Bool.and_eq_true, List.all_eq_true] at hvalid
    exact absurd (hvalid.2 42 hmem) (by decide)

/-- A wildcard that passes the check, as the selection reads it. -/
theorem checkHost_wildcard (h : checkHost (utf8 "wildcard") host = .ok ()) :
    2 < (host.map lower).length ∧ (host.map lower).take 2 = utf8 "*." ∧
      (42 : UInt8) ∉ (host.map lower).drop 1 := by
  rw [checkHost, if_neg utf8_wildcard_ne, if_pos rfl] at h
  split at h
  · cases h
  · rename_i hvalid
    rw [not_or, not_or, not_not, Bool.not_eq_false] at hvalid
    obtain ⟨hlong, htake, hrest⟩ := hvalid
    refine ⟨?_, ?_, ?_⟩
    · rw [List.length_map]
      omega
    · rw [← List.map_take, htake]
      decide
    · have hdrop : host.drop 1 = 46 :: host.drop 2 := by
        rw [← List.take_append_drop 2 host, htake, utf8_star_dot]
        rfl
      rw [← List.map_drop, hdrop]
      intro hmem
      obtain ⟨c, hc, hlower⟩ := List.mem_map.mp hmem
      rw [lower_eq (by decide)] at hlower
      subst hlower
      rcases List.mem_cons.mp hc with hdot | hc
      · cases hdot
      · exact star_notMem_of_valid hrest hc

theorem hostScore_of_checked {size : Nat} (hconcrete : ¬(type = utf8 "wildcard" ∧ host = utf8 "*"))
    (h : checkHost type host = .ok ()) : ∃ v, hostScore url title size type (host.map lower) = .ok v := by
  unfold hostScore
  split
  · exact ⟨_, rfl⟩
  · rename_i hnot
    have htype : type = utf8 "wildcard" := by
      by_contra hother
      rw [checkHost, if_neg hnot, if_neg hother] at h
      cases h
    subst htype
    rw [if_neg fun hbare => hconcrete ⟨rfl, lower_eq_star.mp hbare.2⟩,
      if_pos ⟨rfl, checkHost_wildcard h⟩]
    exact ⟨_, rfl⟩

theorem checkPath_ok (h : checkPath entry = .ok path) :
    (entry.get "Path" = none ∧ path = []) ∨ entry.stringAt "Path" = some path := by
  unfold checkPath at h
  split at h
  · rename_i hnone
    cases h
    exact .inl ⟨hnone, rfl⟩
  · rename_i hsome
    split at h
    · cases h
    · split at h
      · cases h
      · cases h
        exact .inr (stringAt_eq.mpr hsome)
  · cases h

theorem Routed.readable (h : Routed pins entry protocol type host path) :
    ∃ v, verdict url title entry = .ok v := by
  unfold verdict
  rw [h.hasProtocol, h.hasHost, h.hasType]
  dsimp only
  split
  · exact ⟨none, rfl⟩
  · obtain ⟨score, hscore⟩ : ∃ v, hostScore url title entry.size type (host.map lower) = .ok v :=
      hostScore_of_checked h.concrete h.checkedHost
    rw [hscore]
    cases score with
    | none => exact ⟨none, rfl⟩
    | some score =>
      rcases checkPath_ok h.checkedPath with ⟨hpath, -⟩ | hpath
      · rw [hpath]
        exact ⟨_, rfl⟩
      · rw [stringAt_eq.mp hpath]
        exact ⟨_, rfl⟩

/-- The one value an accepted fallback can have. -/
def fallback : Json :=
  .object [("Host", .string (utf8 "*")), ("HostType", .string (utf8 "wildcard")),
    ("Protocol", .string (utf8 "https"))]

theorem Fallback.eq (h : Fallback entry) (hordered : entry.ordered = true) : entry = fallback := by
  have hsize := h.size
  have hhost := stringAt_eq.mp h.hasHost
  have htype := stringAt_eq.mp h.hasType
  have hprotocol := stringAt_eq.mp h.hasProtocol
  cases entry with
  | object fields =>
    have hnames : fields.map Prod.fst = ["Host", "HostType", "Protocol"] := by
      apply Json.fields_of_size hordered
      · decide
      · simp [hhost, htype, hprotocol]
      · rw [Json.size] at hsize
        simp [hsize]
    match fields, hnames with
    | [(_, a), (_, b), (_, c)], hnames =>
      cases hnames
      cases hhost
      cases htype
      cases hprotocol
      rfl
  | _ => cases hhost

theorem fallback_readable : ∃ v, verdict url title fallback = .ok v := by
  have hprotocol : fallback.stringAt "Protocol" = some (utf8 "https") := rfl
  have hhost : fallback.stringAt "Host" = some (utf8 "*") := rfl
  have htype : fallback.stringAt "HostType" = some (utf8 "wildcard") := rfl
  have hpath : fallback.get "Path" = none := rfl
  have hscore : hostScore url title fallback.size (utf8 "wildcard") ((utf8 "*").map lower) =
      .ok (if title = true then some 0 else none) := by
    rw [hostScore, if_neg utf8_wildcard_ne, if_pos ⟨rfl, lower_eq_star.mpr rfl⟩]
    exact if_neg (not_not.mpr rfl)
  unfold verdict
  rw [hprotocol, hhost, htype]
  dsimp only
  rw [if_neg (not_not.mpr rfl), hscore]
  cases title
  · exact ⟨none, rfl⟩
  · rw [hpath]
    exact ⟨_, rfl⟩

end

/-! ## One rank, one route -/

theorem hostMatch_eq_of_score {a b : Json} {m m' : HostMatch} (ha : CoversHost url title a m)
    (hb : CoversHost url title b m') (h : m.score url = m'.score url) : m = m' := by
  rcases HostMatch.trichotomy m m' with hbelow | rfl | habove
  · exact absurd h (score_lt ha hb hbelow).ne
  · rfl
  · exact absurd h (score_lt hb ha habove).ne'

theorem toUInt8_widen (c : UInt8) : (widen c).toUInt8 = c := by
  apply UInt8.toBitVec_inj.mp
  have hwidth : (widen c).toUInt8.toBitVec = (c.toBitVec.signExtend 16).setWidth 8 := by
    simp [widen]
  rw [hwidth]
  ext i hi
  have hbit : i < 16 := by omega
  rw [BitVec.getElem_setWidth, BitVec.getLsbD_signExtend]
  simp [hi, hbit]

theorem widen_injective : Function.Injective widen := by
  intro c d h
  rw [← toUInt8_widen c, h, toUInt8_widen d]

/-- The host of an endpoint, as the keys of the routes have it. -/
theorem canonical_eq {a b : Json} {m : HostMatch} (hm : m ≠ .any) (ha : CoversHost url title a m)
    (hb : CoversHost url title b m) : ∃ type host host', a.stringAt "HostType" = some type ∧
      b.stringAt "HostType" = some type ∧ a.stringAt "Host" = some host ∧
      b.stringAt "Host" = some host' ∧ host.map lower = host'.map lower := by
  cases ha with
  | exact host htype hhost hsame =>
    cases hb with
    | exact host' htype' hhost' hsame' =>
      exact ⟨_, host, host', htype, htype', hhost, hhost', hsame.trans hsame'.symm⟩
  | suffix host before rest htype hhost hstar hrest hbefore hends =>
    generalize hlength : host.length = n at hb
    cases hb with
    | suffix host' before' rest' htype' hhost' hstar' hrest' hbefore' hends' =>
      refine ⟨_, host, host', htype, htype', hhost, hhost', ?_⟩
      have hlengths : rest.length = rest'.length := by
        have h := congrArg List.length hstar
        have h' := congrArg List.length hstar'
        rw [List.length_map, List.length_append] at h h'
        omega
      have hrests : rest = rest' := by
        rw [hends] at hends'
        exact (List.append_inj' hends' hlengths).2
      rw [hstar, hstar', hrests]
  | any htype hhost htitle => exact absurd rfl hm

section

variable {pins : Option (List Json)} {a b entry : Json} {m : HostMatch} {n : Nat}
  {protocol type host path protocol' type' host' path' : Bytes}

theorem coversPath_checked (h : CoversPath url entry n) (hpath : checkPath entry = .ok path) :
    path.length = n ∧ BelowPath url path := by
  cases h with
  | all hnone =>
    rcases checkPath_ok hpath with ⟨-, rfl⟩ | hsome
    · exact ⟨rfl, .inl rfl⟩
    · rw [stringAt_eq, hnone] at hsome
      cases hsome
  | below path' hsome hbelow =>
    rcases checkPath_ok hpath with ⟨hnone, -⟩ | hsome'
    · rw [stringAt_eq, hnone] at hsome
      cases hsome
    · rw [hsome] at hsome'
      cases hsome'
      exact ⟨rfl, hbelow⟩

theorem belowPath_unique (h : BelowPath url path) (h' : BelowPath url path')
    (hlength : path.length = path'.length) : path = path' := by
  rcases h with rfl | ⟨rest, hrest, -⟩
  · exact (List.length_eq_zero_iff.mp hlength.symm).symm
  · rcases h' with rfl | ⟨rest', hrest', -⟩
    · exact List.length_eq_zero_iff.mp hlength
    · rw [hrest] at hrest'
      have hwide := (List.append_inj hrest' (by rw [List.length_map, List.length_map, hlength])).1
      exact List.map_injective_iff.mpr widen_injective hwide

theorem Routed.ne_any (h : Routed pins entry protocol type host path)
    (hm : CoversHost url title entry m) : m ≠ .any := by
  rintro rfl
  cases hm with
  | any htype hhost htitle =>
    rw [h.hasType, Option.some.injEq] at htype
    rw [h.hasHost, Option.some.injEq] at hhost
    exact h.concrete ⟨htype, hhost⟩

/-- Endpoints that cover a request alike are of one route. -/
theorem Routed.key_eq (ha : Routed pins a protocol type host path)
    (hb : Routed pins b protocol' type' host' path') (hca : Covers url title a m n)
    (hcb : Covers url title b m n) :
    routeKey protocol type host path = routeKey protocol' type' host' path' := by
  have hprotocol := hca.https
  have hprotocol' := hcb.https
  rw [ha.hasProtocol, Option.some.injEq] at hprotocol
  rw [hb.hasProtocol, Option.some.injEq] at hprotocol'
  obtain ⟨t, x, y, htype, htype', hhost, hhost', hsame⟩ :=
    canonical_eq (ha.ne_any hca.host) hca.host hcb.host
  rw [ha.hasType, Option.some.injEq] at htype
  rw [hb.hasType, Option.some.injEq] at htype'
  rw [ha.hasHost, Option.some.injEq] at hhost
  rw [hb.hasHost, Option.some.injEq] at hhost'
  obtain ⟨hlength, hbelow⟩ := coversPath_checked hca.path ha.checkedPath
  obtain ⟨hlength', hbelow'⟩ := coversPath_checked hcb.path hb.checkedPath
  have hpath := belowPath_unique hbelow hbelow' (hlength.trans hlength'.symm)
  subst hprotocol hprotocol' htype hhost hhost' hpath
  subst htype'
  rw [routeKey, routeKey, hsame]

end

/-! ## Accepted documents -/

theorem find?_eq_of_find? {α : Type} {p q : α → Bool} {rows : List α} {x y : α}
    (hx : rows.find? p = some x) (hy : rows.find? q = some y) (hpy : p y = true)
    (hqx : q x = true) : x = y := by
  induction rows with
  | nil => cases hx
  | cons row rows ih =>
    by_cases hp : p row = true
    · rw [List.find?_cons_of_pos hp] at hx
      cases hx
      rw [List.find?_cons_of_pos hqx] at hy
      exact Option.some.inj hy
    · rw [List.find?_cons_of_neg hp] at hx
      by_cases hq : q row = true
      · rw [List.find?_cons_of_pos hq] at hy
        cases hy
        exact absurd hpy hp
      · rw [List.find?_cons_of_neg hq] at hy
        exact ih hx hy

section

variable {pins : Option (List Json)} {kept : List Json} {b : Best Json Rank}

/-- Whether an endpoint matches with that rank. -/
def hasRank (url : Url) (title : Bool) (rank : Rank) (entry : Json) : Bool :=
  match verdict url title entry with
  | .ok (some rank') => decide (rank' = rank)
  | _ => false

theorem hasRank_iff {rank : Rank} {entry : Json} :
    hasRank url title rank entry = true ↔ verdict url title entry = .ok (some rank) := by
  unfold hasRank
  split
  · rename_i rank' h
    rw [h, decide_eq_true_eq, Except.ok.injEq, Option.some.injEq]
  · rename_i hnot
    constructor
    · intro h
      cases h
    · exact fun h => absurd h (hnot rank)

/-- The best match is the first endpoint of its rank. -/
theorem best_first (h : b.IsBest Json.same (candidates url title kept)) :
    kept.find? (hasRank url title b.rank) = some b.value := by
  obtain ⟨before, after, heq, hbefore, -⟩ := h.split
  have hfirst : (candidates url title kept).find? (fun row => decide (row.2 = b.rank)) =
      some (b.value, b.rank) := by
    rw [heq, List.find?_append, List.find?_eq_none.mpr]
    · simp
    · intro row hrow
      rw [decide_eq_true_eq]
      exact (hbefore row hrow).ne
  rw [candidates, List.find?_filterMap, Option.bind_eq_some_iff] at hfirst
  obtain ⟨entry, hentry, hvalue⟩ := hfirst
  split at hvalue
  · rename_i rank hverdict
    cases hvalue
    rw [← hentry]
    apply congrFun (congrArg List.find? _)
    funext other
    unfold hasRank
    cases hother : verdict url title other with
    | error hr => rfl
    | ok v => cases v <;> rfl
  · cases hvalue

/-- A kept endpoint is the bare fallback or one of a route. -/
theorem Kept.cases {first : Bytes → Option Json} {entry : Json} (h : Kept pins first entry)
    (hordered : entry.ordered = true) : entry = fallback ∨
      ∃ protocol type host path stored, Routed pins entry protocol type host path ∧
        checkEndPoint pins entry = .ok (.route (routeKey protocol type host path)) ∧
        first (routeKey protocol type host path) = some stored ∧ stored.same entry = true := by
  rcases h with hfallback | ⟨key, stored, hroute, hstored, hsame⟩
  · rcases checkEndPoint_ok hfallback with hkind | ⟨-, hentry⟩ | ⟨_, _, _, _, hkind, -⟩
    · cases hkind
    · exact .inl (hentry.eq hordered)
    · cases hkind
  · rcases checkEndPoint_ok hroute with hkind | ⟨hkind, -⟩ | ⟨protocol, type, host, path, hkind, hentry⟩
    · cases hkind
    · cases hkind
    · cases hkind
      exact .inr ⟨protocol, type, host, path, stored, hentry, hroute, hstored, hsame⟩

theorem fallback_any {m : HostMatch} (h : CoversHost url title fallback m) : m = .any := by
  cases h with
  | exact host htype hhost hsame =>
    have hfqdn : some (utf8 "wildcard") = some (utf8 "fqdn") := htype
    exact absurd (Option.some.inj hfqdn) utf8_wildcard_ne
  | suffix host before rest htype hhost hstar hrest hbefore hends =>
    have hbare : some (utf8 "*") = some host := hhost
    have hlength := congrArg List.length hstar
    rw [← Option.some.inj hbare, utf8_star, utf8_star_dot, List.length_map, List.length_append]
      at hlength
    simp only [List.length_cons, List.length_nil] at hlength
    omega
  | any htype hhost htitle => rfl

theorem kept_readable (hkept : ∀ entry ∈ kept, Kept pins (firstOf pins [] kept) entry)
    (hordered : ∀ entry ∈ kept, entry.ordered = true) : Readable url title kept := by
  intro entry hentry
  rcases (hkept entry hentry).cases (hordered entry hentry) with rfl | ⟨_, _, _, _, _, hrouted, -⟩
  · exact fallback_readable
  · exact hrouted.readable

/-- No two endpoints that are best for a request differ. -/
theorem kept_unambiguous (hkept : ∀ entry ∈ kept, Kept pins (firstOf pins [] kept) entry)
    (hordered : ∀ entry ∈ kept, entry.ordered = true)
    (hbest : b.IsBest Json.same (candidates url title kept)) : b.ambiguous = false := by
  have hfirst := best_first hbest
  have hmem := hbest.mem
  obtain ⟨before, after, heq, -, -, hambiguous⟩ := hbest.split
  rw [← Bool.not_eq_true, hambiguous]
  rintro ⟨row, hrow, hrank, hdiffers⟩
  have hrow' : row ∈ candidates url title kept := by
    rw [heq]
    exact List.mem_append_right _ (List.mem_cons_of_mem _ hrow)
  obtain ⟨hin, hverdict⟩ := mem_candidates.mp hmem
  obtain ⟨hin', hverdict'⟩ := mem_candidates.mp hrow'
  rw [hrank] at hverdict'
  obtain ⟨m, n, hcovers, hmn⟩ := covers_of_verdict hverdict
  obtain ⟨m', n', hcovers', hmn'⟩ := covers_of_verdict hverdict'
  dsimp only at hmn hin hcovers
  rw [hmn, toLex_inj, Prod.mk.injEq] at hmn'
  obtain ⟨hscore, rfl⟩ := hmn'
  cases hostMatch_eq_of_score hcovers.host hcovers'.host hscore
  rcases (hkept _ hin).cases (hordered _ hin) with
    hvalue | ⟨protocol, type, host, path, stored, hrouted, hroute, hstored, hsame⟩
  · rw [hvalue] at hcovers hdiffers
    have hany := fallback_any hcovers.host
    rcases (hkept _ hin').cases (hordered _ hin') with hvalue' | ⟨_, _, _, _, _, hrouted', -⟩
    · rw [hvalue', Json.same_refl] at hdiffers
      cases hdiffers
    · exact hrouted'.ne_any hcovers'.host hany
  · rcases (hkept _ hin').cases (hordered _ hin') with
      hvalue' | ⟨protocol', type', host', path', stored', hrouted', hroute', hstored', hsame'⟩
    · rw [hvalue'] at hcovers'
      exact hrouted.ne_any hcovers.host (fallback_any hcovers'.host)
    · -- the stored endpoint of the route is itself the best match
      rw [hrouted'.key_eq hrouted hcovers' hcovers, hstored] at hstored'
      cases hstored'
      have hfind : kept.find? (hasKey pins (routeKey protocol type host path)) = some stored :=
        hstored
      have hstoredIn := List.mem_of_find?_eq_some hfind
      have hreadable : Readable url title kept := kept_readable hkept hordered
      obtain ⟨v, hv⟩ := hreadable stored hstoredIn
      have hstoredCovers := covers_of_same ((Json.same_comm _ _).trans hsame) hcovers
      rw [verdict_of_covers hstoredCovers hv, ← hmn, ← hasRank_iff] at hv
      have hbestStored := find?_eq_of_find? hfirst hfind hv (hasKey_iff.mpr hroute)
      rw [hbestStored, Json.same_comm, hsame'] at hdiffers
      cases hdiffers

theorem checkTls_ok {entry : Json} (h : checkTls entry = .ok ()) :
    entry.get "MinTlsVersion" = none ∨ ∃ tls, entry.get "MinTlsVersion" = some (.string tls) := by
  unfold checkTls at h
  split at h
  · rename_i hnone
    exact .inl hnone
  · rename_i tls hsome
    exact .inr ⟨tls, hsome⟩
  · cases h

theorem checkPins_ok {entry : Json} (h : checkPins pins entry = .ok ()) :
    entry.get "ServerCertIndex" = none ∨ ∃ indexes rows,
      entry.get "ServerCertIndex" = some (.array indexes) ∧ pins = some rows ∧
        indexes.all (namesCert rows) = true := by
  unfold checkPins at h
  split at h
  · rename_i hnone
    exact .inl hnone
  · rename_i indexes hsome
    split at h
    · cases h
    · rename_i rows
      split at h
      · rename_i hall
        exact .inr ⟨indexes, rows, hsome, rfl, hall⟩
      · cases h
  · cases h

theorem tlsRefusal_status {entry : Json} {hr : HResult} {status : Status}
    (h : checkTls entry = .ok ()) (hrefusal : tlsRefusal entry = some (hr, status)) :
    hr = E_NOTIMPL ∧ status = .tlsUnsupported := by
  unfold tlsRefusal at hrefusal
  rcases checkTls_ok h with hnone | ⟨tls, hsome⟩
  · rw [hnone] at hrefusal
    cases hrefusal
  · rw [hsome] at hrefusal
    dsimp only at hrefusal
    split at hrefusal
    · cases hrefusal
    · cases hrefusal
      exact ⟨rfl, rfl⟩

/-- The restrictions of a kept endpoint were checked; what is left is that they are not supported. -/
theorem kept_refusal {document entry : Json} {first : Bytes → Option Json} {hr : HResult}
    {status : Status} (h : Kept (certs document) first entry) (hordered : entry.ordered = true)
    (hrefusal : refusal document entry = some (hr, status)) :
    hr = E_NOTIMPL ∧ (status = .pinsUnsupported ∨ status = .tlsUnsupported) := by
  rcases h.cases hordered with rfl | ⟨protocol, type, host, path, stored, hrouted, -⟩
  · cases hrefusal
  · unfold refusal at hrefusal
    rcases checkPins_ok hrouted.checkedPins with hnone | ⟨indexes, rows, hsome, hcerts, hall⟩
    · rw [hnone] at hrefusal
      exact (tlsRefusal_status hrouted.checkedTls hrefusal).imp_right .inr
    · rw [hsome, hcerts] at hrefusal
      dsimp only at hrefusal
      rw [if_neg (Bool.eq_false_iff.not_left.mpr hall)] at hrefusal
      split at hrefusal
      · cases hrefusal
        exact ⟨rfl, .inl rfl⟩
      · exact (tlsRefusal_status hrouted.checkedTls hrefusal).imp_right .inr

end

/-- What a selection from an accepted title document can report. -/
def Supported (s : Selection) : Prop :=
  (s.hr = S_OK ∧ s.status ∈ [Status.matchedUnpinned, .matchedHttpsFallback]) ∨
    (failed s.hr = true ∧ s.status ∈ [Status.unmatched, .pinsUnsupported, .tlsUnsupported])

theorem finish_supported {document : Json} {b : Best Json Rank} (hunique : b.ambiguous = false)
    (hrefusal : ∀ hr status, refusal document b.value = some (hr, status) →
      hr = E_NOTIMPL ∧ (status = .pinsUnsupported ∨ status = .tlsUnsupported)) :
    Supported (finish document b) := by
  rw [finish, hunique, if_neg Bool.false_ne_true]
  split
  · rename_i hr status h
    obtain ⟨rfl, rfl | rfl⟩ := hrefusal hr status h
    · exact .inr ⟨by decide, by decide⟩
    · exact .inr ⟨by decide, by decide⟩
  · refine .inl ⟨rfl, ?_⟩
    dsimp only
    unfold matchedStatus
    split
    · exact List.mem_cons_self
    · exact List.mem_cons_of_mem _ List.mem_cons_self

theorem accepted_supported {document : Document} {accepted : Json}
    (h : validateTitleDocument document = .ok accepted) (url : Url) :
    Supported (selectPolicy accepted url true) := by
  unfold validateTitleDocument at h
  split at h
  · cases h
  · rename_i rows hrows
    split at h
    · cases h
    · split at h
      · cases h
      · rename_i kept hchecked
        cases h
        obtain ⟨hsub, hkept⟩ := checkEndPoints_ok hchecked
        obtain ⟨hget, hlength⟩ := get_of_endPoints hrows
        have hordered : ∀ entry ∈ kept, entry.ordered = true := by
          intro entry hentry
          have harray := Json.ordered_of_get document.ordered hget
          rw [Json.ordered] at harray
          exact ordered_of_mem_rows harray (hsub.subset hentry)
        have hend := endPoints_set hrows (hsub.length_le.trans hlength)
        rw [selectPolicy_of_readable hend (kept_readable hkept hordered)]
        cases hbest : Foundation.best Json.same (candidates url true kept) with
        | none =>
          show Supported (.refuse NOT_FOUND .unmatched)
          exact .inr ⟨by decide, by decide⟩
        | some b =>
          have hisBest := best_isBest hbest
          have hin := (mem_candidates.mp hisBest.mem).1
          apply finish_supported (kept_unambiguous hkept hordered hisBest)
          rw [refusal_set]
          exact fun hr status => kept_refusal (hkept _ hin) (hordered _ hin)

/-- The order of the endpoints does not matter where comparing equal is being equal; an accepted title
document leaves no request ambiguous or malformed; and the defaults' refusals and flags bind a
title. -/
theorem policy_monotone :
    (∀ (document : Json) (url : Url) (title : Bool) (rows rows' : List Json),
      endPoints document = some rows → rows.Perm rows' → SameIsEqual rows →
      selectPolicy document url title =
          selectPolicy (document.set "EndPoints" (.array rows')) url title ∨
        (Malformed (selectPolicy document url title) ∧
          Malformed (selectPolicy (document.set "EndPoints" (.array rows')) url title))) ∧
    (∀ (document : Json) (url : Url) (title : Bool) (rows : List Json) (entry : Json),
      endPoints document = some rows →
      (selectPolicy document url title).endpoint = some entry →
      MostSpecific url title rows entry) ∧
    (∀ (document : Document) (accepted : Json) (url : Url),
      validateTitleDocument document = .ok accepted →
      Supported (selectPolicy accepted url true)) ∧
    ∀ (defaults : Json) (title : Option Json) (url : Url),
      (failed (selectPolicy defaults url false).hr = true →
        (selectPolicy defaults url false).status ≠ .unmatched →
        failed (selectCombinedPolicy defaults title url).hr = true) ∧
      (failed (selectPolicy defaults url false).hr = false →
        (selectCombinedPolicy defaults title url).enabledHttpSecurityProtocolFlags &&&
            (selectPolicy defaults url false).enabledHttpSecurityProtocolFlags =
          (selectCombinedPolicy defaults title url).enabledHttpSecurityProtocolFlags) := by
  refine ⟨?_, ?_, ?_, ?_⟩
  · intro document url title rows rows' hrows hperm hsame
    exact selectPolicy_perm hrows hperm hsame
  · intro document url title rows entry hrows hentry
    exact selected_mostSpecific hrows hentry
  · intro document accepted url haccepted
    exact accepted_supported haccepted url
  · intro defaults title url
    exact ⟨combined_failed title, combined_flags_le title⟩

/-! ## Two endpoints of one host -/

/-- A full host with the certificate of that index. -/
def pinnedTo (index : Json) : Json :=
  .object [("Host", .string (utf8 "a.test")), ("HostType", .string (utf8 "fqdn")),
    ("Protocol", .string (utf8 "https")), ("ServerCertIndex", .array [index])]

def pinning (rows : List Json) : Json :=
  .object [("Certs", .array [.object [("Thumbprint", .string (utf8 "00"))]]),
    ("EndPoints", .array rows)]

def wildTest : Json :=
  .object [("Host", .string (utf8 "*.test")), ("HostType", .string (utf8 "wildcard")),
    ("Protocol", .string (utf8 "https"))]

def aTest : Url where
  hostAscii := utf8 "a.test"
  path := [47]
  host_ne := by decide

theorem policy_monotone_pinned :
    (selectPolicy (pinning [wildTest, pinnedTo (.unsigned 0)]) aTest true =
        selectPolicy (pinning [pinnedTo (.unsigned 0), wildTest]) aTest true ∨
      (Malformed (selectPolicy (pinning [wildTest, pinnedTo (.unsigned 0)]) aTest true) ∧
        Malformed (selectPolicy (pinning [pinnedTo (.unsigned 0), wildTest]) aTest true))) ∧
    MostSpecific aTest true [fallback, wildTest] wildTest ∧
    Supported (selectPolicy (pinning [wildTest, pinnedTo (.unsigned 0)]) aTest true) ∧
    failed (selectCombinedPolicy (pinning [pinnedTo (.unsigned 0)]) (some (pinning [fallback]))
      aTest).hr = true ∧
    (selectCombinedPolicy (pinning [wildTest]) (some (pinning [fallback]))
        aTest).enabledHttpSecurityProtocolFlags &&&
        (selectPolicy (pinning [wildTest]) aTest false).enabledHttpSecurityProtocolFlags =
      (selectCombinedPolicy (pinning [wildTest]) (some (pinning [fallback]))
        aTest).enabledHttpSecurityProtocolFlags := by
  have hsame : SameIsEqual [wildTest, pinnedTo (.unsigned 0)] := by
    intro a ha b hb hab
    simp only [List.mem_cons, List.not_mem_nil, or_false] at ha hb
    rcases ha with rfl | rfl <;> rcases hb with rfl | rfl
    · rfl
    · exact absurd hab (by decide +kernel)
    · exact absurd hab (by decide +kernel)
    · rfl
  refine ⟨?_, ?_, ?_, ?_, ?_⟩
  · exact policy_monotone.1 (pinning [wildTest, pinnedTo (.unsigned 0)]) aTest true
      [wildTest, pinnedTo (.unsigned 0)] [pinnedTo (.unsigned 0), wildTest] rfl
      (.swap _ _ _) hsame
  · exact policy_monotone.2.1 (pinning [fallback, wildTest]) aTest true [fallback, wildTest]
      wildTest rfl rfl
  · exact policy_monotone.2.2.1 ⟨pinning [wildTest, pinnedTo (.unsigned 0)], by decide +kernel⟩
      (pinning [wildTest, pinnedTo (.unsigned 0)]) aTest rfl
  · exact (policy_monotone.2.2.2 (pinning [pinnedTo (.unsigned 0)]) (some (pinning [fallback]))
      aTest).1 (by decide +kernel) (by decide +kernel)
  · exact (policy_monotone.2.2.2 (pinning [wildTest]) (some (pinning [fallback])) aTest).2
      (by decide +kernel)

/-- `[0]` and `[0.0]` compare equal, so the first of them is selected, and only the second is
malformed. A request the defaults have no endpoint for takes the title's flags. -/
theorem same_endpoints_differ :
    (selectPolicy (pinning [pinnedTo (.unsigned 0), pinnedTo (.float 0)]) aTest false).status =
        .pinsUnsupported ∧
      (selectPolicy (pinning [pinnedTo (.float 0), pinnedTo (.unsigned 0)]) aTest false).status =
        .invalid ∧
      (selectPolicy (pinning []) aTest false).enabledHttpSecurityProtocolFlags = 0 ∧
      (selectCombinedPolicy (pinning []) (some (pinning [fallback])) aTest).hr = S_OK ∧
      (selectCombinedPolicy (pinning []) (some (pinning [fallback]))
        aTest).enabledHttpSecurityProtocolFlags = SECURE_PROTOCOL_TLS1_2 := by
  decide +kernel

end Flightdeck.Network
