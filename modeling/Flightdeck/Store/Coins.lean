import Flightdeck.Foundation.Outcome
import Flightdeck.HResults
import Flightdeck.Network.Json

/-!
# Planning a product page

`StoreCatalogCoinMapper.cpp`: which offers of the catalog may stand on a page, and under which keys
their ownership is asked for.  The parser of JSON documents, the calendar of Windows and the printed
prices are parameters; a `double` is a `Float`.
-/

namespace Flightdeck.Store.Coins

open Foundation Network

def E_INVALIDARG : HResult := 0x80070057

/-! ## Catalog documents -/

structure Image where
  uri : Bytes
  caption : Bytes
  purpose : Bytes
  width : UInt32
  height : UInt32

structure LocalizedText where
  language : Bytes
  title : Bytes
  description : Bytes
  markets : List Bytes
  images : List Image
  keywords : List Bytes

structure Price where
  listPrice : Float
  basePrice : Float
  currency : Bytes

structure Availability where
  id : Bytes
  startDate : Bytes
  endDate : Bytes
  actions : List Bytes
  markets : List Bytes
  platforms : List Bytes
  hasPrice : Bool
  price : Price

structure Sku where
  id : Bytes
  localized : List LocalizedText
  availabilities : List Availability

structure Product where
  id : Bytes
  offerToken : Bytes
  kind : UInt32
  localized : List LocalizedText
  skus : List Sku
  rawJson : Bytes

structure Offer where
  id : Bytes
  currency : Bytes
  base : Float
  price : Float
  «end» : Int
  purchasable : Bool

structure Coin where
  id : Bytes
  sku : Bytes
  offerToken : Bytes
  title : Bytes
  description : Bytes
  language : Bytes
  skuTitle : Bytes
  skuDescription : Bytes
  skuLanguage : Bytes
  images : List Image
  skuImages : List Image
  keywords : List Bytes
  offers : List Offer
  download : Bool

/-- The code a call fails with, and the category it reports for an unsupported shape. -/
structure Failed where
  hr : HResult
  reason : Option String

/-- What is not part of the repository. -/
class Platform where
  /-- `nlohmann::json::parse` -/
  parse : Bytes → Option Json
  /-- The seconds from 1601 to a date and time, if `SystemTimeToFileTime` takes the date. -/
  fileTime : (year month day hour minute second : Nat) → Option Int
  /-- `"%s %.2f"` printed into the buffer of a price, if it fits. -/
  print : Bytes → Float → Option Bytes

/-- `unsupported` -/
def unsupported (reason : String) : Failed := ⟨E_NOTIMPL, some reason⟩

/-- What `catch (...)` makes of an exception. -/
def invalidData : Failed := ⟨INVALID_DATA, none⟩

def check (condition : Bool) (failed : Failed) : Except Failed Unit :=
  if condition then .ok () else .error failed

def orFail {α : Type} (value : Option α) (failed : Failed) : Except Failed α :=
  match value with
  | some a => .ok a
  | none => .error failed

theorem check_eq_ok {condition : Bool} {failed : Failed} {u : Unit} :
    check condition failed = .ok u ↔ condition = true := by
  cases condition <;> simp [check]

theorem orFail_eq_ok {α : Type} {value : Option α} {failed : Failed} {a : α} :
    orFail value failed = .ok a ↔ value = some a := by
  cases value <;> simp [orFail]

/-! ## JSON -/

/-- `value.at(key)` -/
def field (value : Json) (key : String) : Except Failed Json :=
  orFail (value.get key) invalidData

/-- What `for (const auto &v : value)` goes through. -/
def elements : Json → List Json
  | .array rows => rows
  | .object fields => fields.map Prod.snd
  | .null => []
  | value => [value]

def isNull : Json → Bool
  | .null => true
  | _ => false

def isArray : Json → Bool
  | .array _ => true
  | _ => false

def isEmptyArray : Json → Bool
  | .array [] => true
  | _ => false

def isObject : Json → Bool
  | .object _ => true
  | _ => false

def stringIs (value : Json) (text : Bytes) : Bool :=
  match value with
  | .string s => s == text
  | _ => false

def emptyMedia (o : Json) (key : String) : Bool :=
  (o.get key).all fun value => isNull value || isEmptyArray value

def booleanIs (o : Json) (key : String) (wanted : Bool) : Bool :=
  match o.get key with
  | some (.boolean b) => b == wanted
  | _ => false

def contains (array : Json) (text : Bytes) : Bool :=
  match array with
  | .array rows => rows.any fun row => stringIs row text
  | _ => false

/-- The element of an array; the documents of the catalog have as many as their product has SKUs. -/
def element (value : Json) (i : Nat) : Except Failed Json :=
  match value with
  | .array rows => orFail rows[i]? invalidData
  | _ => .error invalidData

/-! ## What decides about an offer -/

def shortName (language : Bytes) : Bytes := language.takeWhile (· != 45)

/-- The translation in the language, else in its short name, else of the same short name, else any;
all of them for the market. -/
def languageText (values : List LocalizedText) (language market : Bytes) : Option LocalizedText :=
  let inMarket := values.filter fun v => v.markets.contains market
  let short := shortName language
  inMarket.find? (fun v => v.language == language)
    <|> inMarket.reverse.find? (fun v => v.language == short)
    <|> inMarket.find? (fun v => shortName v.language == short)
    <|> inMarket.head?

/-- `associated` -/
def associated (p : Json) (parent market : Bytes) (relationship : String) : Bool :=
  match p.get "MarketProperties" with
  | some (.array rows) => rows.any fun m =>
    isObject m && (m.get "Markets").any (fun markets => contains markets market) &&
      match m.get "RelatedProducts" with
      | some (.array related) => related.any fun r =>
        (r.get "RelatedProductId").any (fun id => stringIs id parent) &&
          (r.get "RelationshipType").any fun kind => stringIs kind (utf8 relationship)
      | _ => false
  | _ => false

/-- `platform.at(key) == n` -/
def versionIs (platform : Json) (key : String) (n : Int64) : Bool :=
  (platform.get key).any fun version => version.same (.integer n)

/-- A `PIFilter` without any entry. -/
def noFilter (a : Json) : Bool :=
  match (a.get "OrderManagementData").bind fun o => o.get "PIFilter" with
  | none | some .null => true
  | some (.object fields) => fields.all fun entry => isEmptyArray entry.2
  | some _ => false

/-- `unrestricted` -/
def unrestricted (a : Json) : Except Failed Bool := do
  let c ← field a "Conditions"
  let known := ["StartDate", "EndDate", "ClientConditions", "ResourceSetIds"]
  match c, c.get "ClientConditions" with
  | .object fields, some (.object client) =>
    match client.length, (Json.object client).get "AllowedPlatforms" with
    | 1, some (.array platforms) =>
      let desktop := platforms.filter fun platform =>
        (platform.get "PlatformName").any fun name => stringIs name (utf8 "Windows.Desktop")
      return fields.all (fun entry => known.contains entry.1) && !desktop.isEmpty &&
        desktop.all (fun platform => versionIs platform "MinVersion" 0 &&
          versionIs platform "MaxVersion" 2147483647) && noFilter a
    | _, _ => return false
  | _, _ => return false

def isDigit (b : UInt8) : Bool := 48 ≤ b && b ≤ 57

/-- `num` -/
def digits (s : Bytes) (pos n : Nat) : Option Nat :=
  let part := (s.drop pos).take n
  if part.all isDigit then some (part.foldl (fun v b => 10 * v + (b.toNat - 48)) 0) else none

variable [Platform]

/-- `utc`: the seconds since 1970 of a date. -/
def utc (s : Bytes) : Option Int := do
  let at' (i : Nat) (c : UInt8) : Bool := s[i]? == some c
  guard (20 ≤ s.length && s.getLast? == some 90 && at' 4 45 && at' 7 45 && at' 10 84 && at' 13 58 &&
    at' 16 58)
  guard (s.length = 20 || at' 19 46 && 22 ≤ s.length && s.length ≤ 30 &&
    ((s.drop 20).dropLast).all isDigit)
  let y ← digits s 0 4
  let mo ← digits s 5 2
  let d ← digits s 8 2
  let h ← digits s 11 2
  let mi ← digits s 14 2
  let se ← digits s 17 2
  guard (1601 ≤ y && y ≤ 9999 && 1 ≤ mo && mo ≤ 12 && 1 ≤ d && d ≤ 31 && h ≤ 23 && mi ≤ 59 &&
    se ≤ 59)
  let seconds ← Platform.fileTime y mo d h mi se
  return seconds - 11644473600

/-! ## The plan -/

/-- The arguments of `plan_coins`. -/
structure Query where
  catalog : List Product
  kinds : UInt32
  actions : List Bytes
  parent : Bytes
  market : Bytes
  language : Bytes
  now : Int
  entitled : Bool

def PURCHASE : Bytes := utf8 "Purchase"

/-- A price in whole cents. -/
def precise (amount : Float) : Bool :=
  !((amount * 100).round - amount * 100).abs > 0.00001

/-- One turn of the loop over the availabilities: the offer, if there is one to add. -/
def offer (q : Query) (p rawOffers : Json) (i : Nat) (a : Availability) :
    Except Failed (Option Offer) := do
  if !a.markets.contains q.market then return none
  if !q.actions.isEmpty && !q.actions.head?.any a.actions.contains then return none
  -- mobile-only offers are not candidate prices for a desktop game
  if !a.platforms.contains (utf8 "Windows.Desktop") then return none
  if a.actions.contains PURCHASE && !associated p q.parent q.market "SellableBy" then
    if q.entitled then return none
    throw (unsupported "offer-association")
  let start ← orFail (utc a.startDate) invalidData
  let end' ← orFail (utc a.endDate) invalidData
  if q.now < start || end' ≤ q.now then return none
  let simple ← if a.hasPrice then unrestricted (← element rawOffers i) else pure false
  if !simple then
    if q.entitled then return none
    throw (unsupported (if a.hasPrice then "offer-conditions" else "offer-price"))
  check (precise a.price.listPrice && precise a.price.basePrice) (unsupported "price-precision")
  return some { id := a.id, currency := a.price.currency, base := a.price.basePrice,
                price := a.price.listPrice, «end» := end'
                purchasable := a.actions.contains PURCHASE }

def offers (q : Query) (p rawOffers : Json) : Nat → List Availability → Except Failed (List Offer)
  | _, [] => return []
  | i, a :: rest => do
    let first ← offer q p rawOffers i a
    return first.toList ++ (← offers q p rawOffers (i + 1) rest)

/-- All offers have the price of the first. -/
def samePrice : List Offer → Bool
  | [] => true
  | first :: rest => (first :: rest).all fun o =>
    o.currency == first.currency && o.price == first.price && o.base == first.base

/-- A requested id and the SKU after its slash, empty if there is none. -/
def splitId (requested : Bytes) : Option (Bytes × Bytes) :=
  if requested.length = 12 then some (requested, [])
  else if requested.length = 17 ∧ requested[12]? = some 47 then
    some (requested.take 12, requested.drop 13)
  else none

/-- What has to hold of the document of a SKU, and whether it has packages. -/
def eligible (q : Query) (p s : Json) : Except Failed Bool := do
  let props ← field s "Properties"
  check (booleanIs props "IsTrial" false) (unsupported "trial-sku")
  let packages := props.get "Packages"
  check (packages.any fun rows => isArray rows && (q.entitled || isEmptyArray rows))
    (unsupported "package-payload")
  check (if q.entitled then (props.get "BundledSkus").all fun b => isNull b || isArray b
    else emptyMedia props "BundledSkus") (unsupported "bundle-sku")
  check ((s.get "RecurrencePolicy").any isNull && (s.get "SubscriptionPolicyId").any isNull)
    (unsupported "subscription-sku")
  let texts ← field p "LocalizedProperties"
  check ((elements texts).all fun l => q.entitled || emptyMedia l "Videos")
    (unsupported "product-videos")
  let texts ← field s "LocalizedProperties"
  check ((elements texts).all fun l => q.entitled || emptyMedia l "Videos")
    (unsupported "sku-videos")
  return packages.any fun rows => !isEmptyArray rows

/-- The coin of a product, if it has an offer. -/
def coinOf (q : Query) (product : Product) (sku : Bytes) : Except Failed (Option Coin) := do
  check (product.kind == 1 || product.kind == 2 || product.kind == 16 ||
    (q.entitled && product.kind == 4)) (unsupported "product-kind")
  check (!product.rawJson.isEmpty) ⟨E_INVALIDARG, none⟩
  let json ← orFail (Platform.parse product.rawJson) invalidData
  let p ← field json "Product"
  check ((q.entitled && product.id == q.parent) || associated p q.parent q.market "addOnParent")
    (unsupported "title-association")
  let index := product.skus.findIdx fun candidate => sku.isEmpty || candidate.id == sku
  check ((q.entitled || product.skus.length == 1) && !(q.entitled && sku.isEmpty))
    (unsupported "sku-selection")
  let selected ← orFail product.skus[index]? (unsupported "sku-selection")
  let display ← element (← field p "DisplaySkuAvailabilities") index
  let download ← eligible q p (← field display "Sku")
  let pt ← orFail (languageText product.localized q.language q.market)
    (unsupported "product-language")
  let st ← orFail (languageText selected.localized q.language q.market)
    (unsupported "sku-language")
  let found ← offers q p (← field display "Availabilities") 0 selected.availabilities
  if found.isEmpty && !q.entitled && !q.actions.isEmpty then
    return none
  check (!found.isEmpty || q.entitled) (unsupported "no-offer")
  check (samePrice found || q.entitled) (unsupported "ambiguous-price")
  return some {
    id := product.id, sku := selected.id, offerToken := product.offerToken, title := pt.title
    description := pt.description, language := pt.language, skuTitle := st.title
    skuDescription := st.description, skuLanguage := st.language, images := pt.images
    skuImages := st.images, keywords := pt.keywords, download
    -- ambiguous prices are not needed to list an owned SKU
    offers := if samePrice found then found else [] }

/-- The key of the license of a coin. -/
def Coin.key (c : Coin) : Bytes := c.id ++ 47 :: c.sku

/-- `std::map` of strings -/
abbrev KeyMap (β : Type) := Std.ExtTreeMap Bytes β compare

/-- `CoinCatalogPlan` -/
structure Plan where
  coins : List Coin
  kinds : KeyMap UInt32
  entitled : Bool

structure RequestItem where
  storeId : Bytes
  kind : UInt32

structure Planning where
  coins : List Coin := []
  kinds : KeyMap UInt32 := ∅
  processed : KeyMap Unit := ∅

/-- One turn of the loop over the requested ids. -/
def planOne (q : Query) (st : Planning) (requested : Bytes) : Except Failed Planning := do
  let (id, sku) ← orFail (splitId requested) ⟨E_INVALIDARG, none⟩
  let product ← orFail (q.catalog.find? fun p => p.id == id) ⟨NOT_FOUND, none⟩
  if q.kinds &&& product.kind = 0 then
    return st
  match ← coinOf q product sku with
  | none => return st
  | some c =>
    if st.processed.contains c.key then
      return st
    return {
      coins := st.coins ++ [c]
      kinds := st.kinds.insertIfNew c.key product.kind
      processed := st.processed.insert c.key () }

/-- The order in which owned coins are sorted. -/
def coinOrder : Coin → Coin → Ordering := compareLex (compareOn Coin.id) (compareOn Coin.sku)

def sortCoins (coins : List Coin) : List Coin :=
  coins.insertionSort fun a b => (coinOrder a b).isLE

/-- `plan_coins` -/
def planCoins (q : Query) (ids : List Bytes) : Except Failed (Plan × List RequestItem) := do
  check ((q.entitled || !ids.isEmpty) && ids.length ≤ 100 && q.kinds != 0 && q.kinds ≤ 31)
    ⟨E_INVALIDARG, none⟩
  check (q.actions.length ≤ 1) (unsupported "action-filters")
  let st ← ids.foldlM (planOne q) {}
  return ({ coins := if q.entitled then sortCoins st.coins else st.coins
            kinds := st.kinds, entitled := q.entitled },
    st.kinds.toList.map fun (key, kind) => { storeId := (key ++ [0]).take 18, kind })

/-! ## What is planned -/

/-- Without ownership, a coin is the only SKU of its product. -/
def OnlySku (q : Query) (c : Coin) : Prop :=
  ∃ p s, q.catalog.find? (fun p => p.id == c.id) = some p ∧ p.skus = [s] ∧ s.id = c.sku

theorem coinOf_spec {q : Query} {product : Product} {sku : Bytes} {c : Coin}
    (h : coinOf q product sku = .ok (some c)) : c.id = product.id ∧
      (q.entitled = false → ∃ s, product.skus = [s] ∧ s.id = c.sku) := by
  unfold coinOf at h
  simp only [bind_eq_ok, check_eq_ok, orFail_eq_ok] at h
  obtain ⟨_, -, _, -, json, -, p, -, _, -, _, hselection, selected, hselected, _, -, display, -, _,
    -, download, -, pt, -, st, -, _, -, found, -, h⟩ := h
  by_cases hnone : (found.isEmpty && !q.entitled && !q.actions.isEmpty) = true
  · rw [if_pos hnone] at h
    cases h
  · rw [if_neg hnone] at h
    simp only [bind_eq_ok, check_eq_ok, pure_eq_ok, Option.some.injEq] at h
    obtain ⟨_, -, _, -, rfl⟩ := h
    refine ⟨rfl, ?_⟩
    intro hentitled
    rw [hentitled, Bool.false_or, Bool.false_and, Bool.not_false, Bool.and_true,
      beq_iff_eq] at hselection
    obtain ⟨s, hs⟩ := List.length_eq_one_iff.mp hselection
    refine ⟨s, hs, ?_⟩
    have hmem := List.mem_of_getElem? hselected
    rw [hs, List.mem_singleton] at hmem
    rw [hmem]

/-- What holds of the coins that are planned so far. -/
structure Planning.Valid (q : Query) (st : Planning) : Prop where
  keys : (st.coins.map Coin.key).Nodup
  processed : ∀ k, k ∈ st.processed ↔ k ∈ st.coins.map Coin.key
  kinds : ∀ k, k ∈ st.kinds ↔ k ∈ st.coins.map Coin.key
  alone : q.entitled = false → ∀ c ∈ st.coins, OnlySku q c

theorem Planning.Valid.step {q : Query} {st st' : Planning} {requested : Bytes} (hst : st.Valid q)
    (h : planOne q st requested = .ok st') : st'.Valid q := by
  unfold planOne at h
  simp only [bind_eq_ok, orFail_eq_ok, Prod.exists] at h
  obtain ⟨id, sku, -, product, hproduct, h⟩ := h
  have hproductId : product.id = id := by
    have hsame := List.find?_some hproduct
    exact beq_iff_eq.mp hsame
  by_cases hkind : q.kinds &&& product.kind = 0
  · rw [if_pos hkind, pure_eq_ok] at h
    rw [← h]
    exact hst
  rw [if_neg hkind, bind_eq_ok] at h
  obtain ⟨found, hfound, h⟩ := h
  cases found with
  | none =>
    cases h
    exact hst
  | some c =>
    obtain ⟨hc, honly⟩ := coinOf_spec hfound
    by_cases hseen : st.processed.contains c.key = true
    · simp only [if_pos hseen, pure_eq_ok] at h
      rw [← h]
      exact hst
    · simp only [if_neg hseen, pure_eq_ok] at h
      have hfresh : c.key ∉ st.coins.map Coin.key := by
        rw [← hst.processed, ← Std.ExtTreeMap.contains_iff_mem]
        exact hseen
      have hmem : ∀ k, k ∈ (st.coins ++ [c]).map Coin.key ↔
          c.key = k ∨ k ∈ st.coins.map Coin.key := by
        intro k
        rw [List.map_append, List.mem_append, List.map_singleton, List.mem_singleton, or_comm,
          eq_comm]
      rw [← h]
      refine ⟨?_, ?_, ?_, ?_⟩
      · rw [List.map_append, List.nodup_append]
        refine ⟨hst.keys, List.nodup_singleton _, ?_⟩
        intro a ha b hb hab
        rw [List.map_singleton, List.mem_singleton] at hb
        rw [hab, hb] at ha
        exact hfresh ha
      · intro k
        rw [hmem, Std.ExtTreeMap.mem_insert, hst.processed, Std.LawfulEqCmp.compare_eq_iff_eq]
      · intro k
        rw [hmem, Std.ExtTreeMap.mem_insertIfNew, hst.kinds, Std.LawfulEqCmp.compare_eq_iff_eq]
      · intro hentitled other hother
        rcases List.mem_append.mp hother with hother | hother
        · exact hst.alone hentitled other hother
        · obtain ⟨s, hs, hsku⟩ := honly hentitled
          rw [List.mem_singleton.mp hother]
          refine ⟨product, s, ?_, hs, hsku⟩
          rw [hc, hproductId]
          exact hproduct

theorem Planning.Valid.run {q : Query} {ids : List Bytes} {st st' : Planning} (hst : st.Valid q)
    (h : ids.foldlM (planOne q) st = .ok st') : st'.Valid q := by
  induction ids generalizing st with
  | nil =>
    cases h
    exact hst
  | cons requested ids ih =>
    rw [List.foldlM_cons, bind_eq_ok] at h
    obtain ⟨next, hnext, h⟩ := h
    exact ih (hst.step hnext) h

omit [Platform] in
theorem Planning.Valid.start (q : Query) : Planning.Valid q {} where
  keys := List.nodup_nil
  processed := fun k => by simp
  kinds := fun k => by simp
  alone := fun _ _ h => by cases h

/-- What a plan promises to the page: every key once, each with a kind, and the coins of a product
one after the other. -/
structure Plan.Valid (plan : Plan) : Prop where
  keys : (plan.coins.map Coin.key).Nodup
  kinds : ∀ k, k ∈ plan.kinds ↔ k ∈ plan.coins.map Coin.key
  single : plan.entitled = false → (plan.coins.map Coin.id).Nodup
  sorted : plan.entitled = true → plan.coins.Pairwise fun a b => (compare a.id b.id).isLE = true

omit [Platform] in
theorem sortCoins_perm (coins : List Coin) : (sortCoins coins).Perm coins :=
  List.perm_insertionSort _ _

omit [Platform] in
theorem sortCoins_pairwise (coins : List Coin) :
    (sortCoins coins).Pairwise fun a b => (compare a.id b.id).isLE = true := by
  have hcmp : Std.TransCmp coinOrder :=
    inferInstanceAs (Std.TransCmp (compareLex (compareOn Coin.id) (compareOn Coin.sku)))
  have htotal : Std.Total fun a b => (coinOrder a b).isLE = true :=
    ⟨fun a b => by
      have hswap : coinOrder b a = (coinOrder a b).swap := Std.OrientedCmp.eq_swap
      rw [hswap]
      cases coinOrder a b <;> simp⟩
  have htrans : IsTrans Coin fun a b => (coinOrder a b).isLE = true :=
    ⟨fun a b c hab hbc => Std.TransCmp.isLE_trans hab hbc⟩
  refine (List.pairwise_insertionSort (fun a b => (coinOrder a b).isLE = true) coins).imp ?_
  intro a b h
  change ((compare a.id b.id).then (compare a.sku b.sku)).isLE = true at h
  cases hid : compare a.id b.id with
  | lt => rfl
  | eq => rfl
  | gt =>
    rw [hid] at h
    cases h

omit [Platform] in
/-- Where a coin is the only SKU of its product, no id comes twice. -/
theorem Planning.Valid.single {q : Query} {st : Planning} (hst : st.Valid q)
    (hentitled : q.entitled = false) : (st.coins.map Coin.id).Nodup := by
  have hkeys := hst.keys
  rw [List.Nodup, List.pairwise_map] at hkeys ⊢
  refine hkeys.imp_of_mem ?_
  intro a b ha hb hkey hid
  obtain ⟨p, s, hp, hs, hsku⟩ := hst.alone hentitled a ha
  obtain ⟨p', s', hp', hs', hsku'⟩ := hst.alone hentitled b hb
  rw [hid, hp'] at hp
  cases hp
  rw [hs'] at hs
  cases hs
  apply hkey
  rw [Coin.key, Coin.key, hid, ← hsku, ← hsku']

theorem planCoins_valid {q : Query} {ids : List Bytes} {plan : Plan} {requests : List RequestItem}
    (h : planCoins q ids = .ok (plan, requests)) : plan.Valid := by
  unfold planCoins at h
  simp only [bind_eq_ok, pure_eq_ok, Prod.mk.injEq] at h
  obtain ⟨_, -, _, -, st, hst, rfl, -⟩ := h
  have hvalid := (Planning.Valid.start q).run hst
  cases hentitled : q.entitled with
  | true =>
    have hperm := sortCoins_perm st.coins
    simp only [if_true]
    refine ⟨?_, ?_, ?_, ?_⟩
    · exact (hperm.map Coin.key).nodup_iff.mpr hvalid.keys
    · intro k
      rw [(hperm.map Coin.key).mem_iff]
      exact hvalid.kinds k
    · intro hfalse
      cases hfalse
    · intro _
      exact sortCoins_pairwise st.coins
  | false =>
    refine ⟨hvalid.keys, hvalid.kinds, ?_, ?_⟩
    · intro _
      exact hvalid.single hentitled
    · intro htrue
      cases htrue

end Flightdeck.Store.Coins
