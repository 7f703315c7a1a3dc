import Flightdeck.Store.Coins

/-!
# The product page

`coin_page`: the ownership that a license snapshot states for the planned keys, and the flat array
of SKUs into which the products of the page point.
-/

namespace Flightdeck.Store.Coins

open Foundation Network

/-! ## License snapshots -/

structure CollectionItem where
  /-- `char[18]` -/
  storeId : Bytes
  kind : UInt32
  acquiredDate : Int
  startDate : Int
  endDate : Int
  quantity : UInt32
  isTrial : UInt32
  trialSeconds : UInt32
  campaignId : Option Bytes
  developerOfferId : Option Bytes

/-- `XodusStoreCollectionSnapshot`; `none` for an array is a null pointer with a count. -/
structure Snapshot where
  structureSize : UInt32
  unknownCount : UInt32
  directCoverage : UInt32
  satisfyingCoverage : UInt32
  sharedCoverage : UInt32
  observedAt : Int
  expiresAt : Int
  items : Option (List CollectionItem)
  absentIds : Option (List (Option Bytes))

/-- `sizeof(XodusStoreCollectionSnapshot)` -/
def SNAPSHOT_SIZE : UInt32 := 144

/-- The C string in a buffer, if it ends there. -/
def cString (buffer : Bytes) : Option Bytes :=
  if buffer.contains 0 then some (buffer.takeWhile (· != 0)) else none

/-! ## Pages -/

structure StorePrice where
  basePrice : Float32
  price : Float32
  currencyCode : Bytes
  formattedBasePrice : Bytes
  formattedPrice : Bytes
  isOnSale : Bool
  saleEndDate : Int

/-- A price that only has a currency. -/
def StorePrice.blank (currency : Bytes) : StorePrice :=
  { basePrice := 0, price := 0, currencyCode := currency, formattedBasePrice := []
    formattedPrice := [], isOnSale := false, saleEndDate := 0 }

structure CollectionData where
  acquiredDate : Int
  startDate : Int
  endDate : Int
  quantity : UInt32
  isTrial : UInt32
  trialTimeRemainingInSeconds : UInt32
  campaignId : Option Bytes
  developerOfferId : Option Bytes

structure StoreAvailability where
  availabilityId : Bytes
  price : StorePrice
  endDate : Int

/-- `XStoreSku` -/
structure StoreSku where
  skuId : Bytes := []
  title : Bytes := []
  description : Bytes := []
  language : Bytes := []
  isInUserCollection : Bool := false
  images : List Image := []
  price : StorePrice := .blank []
  collectionData : Option CollectionData := none
  availabilities : List StoreAvailability := []

/-- `XStoreProduct`; its SKUs are `skusCount` elements of the array of the page from `skus` on. -/
structure StoreProduct where
  storeId : Bytes := []
  title : Bytes := []
  description : Bytes := []
  language : Bytes := []
  inAppOfferToken : Bytes := []
  linkUri : Bytes := []
  productKind : UInt32 := 0
  isInUserCollection : Bool := false
  hasDigitalDownload : Bool := false
  skus : Nat := 0
  skusCount : Nat := 0
  images : List Image := []
  keywords : List Bytes := []
  price : StorePrice := .blank []

structure Page where
  products : List StoreProduct
  skus : List StoreSku
  continuation : Option Bytes

/-- How building a page ends early: with a code, or with an access outside an array. -/
inductive Fault where
  | failed (hr : HResult)
  | outside
  deriving DecidableEq

def demand (condition : Bool) (hr : HResult) : Except Fault Unit :=
  if condition then .ok () else .error (.failed hr)

/-- `at` of a map, and what `catch (...)` makes of its exception. -/
def lookup {α : Type} (value : Option α) : Except Fault α :=
  match value with
  | some a => .ok a
  | none => .error (.failed INVALID_DATA)

/-- `array[i]` -/
def inside {α : Type} (value : Option α) : Except Fault α :=
  match value with
  | some a => .ok a
  | none => .error .outside

/-! ## Ownership -/

structure Owned where
  owned : KeyMap CollectionItem := ∅
  seen : KeyMap Unit := ∅

/-- One turn of the loop over the items. -/
def ownItem (plan : Plan) (now : Int) (st : Owned) (item : CollectionItem) :
    Except Fault Owned := do
  let id ← lookup (cString item.storeId)
  let kind ← lookup plan.kinds[id]?
  demand (kind == item.kind && 0 ≤ item.acquiredDate && item.acquiredDate ≤ now &&
    0 ≤ item.startDate && item.startDate ≤ now && now < item.endDate && item.isTrial ≤ 1 &&
    (item.isTrial == 1 || item.trialSeconds == 0) && !st.seen.contains id) INVALID_DATA
  return { owned := st.owned.insert id item, seen := st.seen.insert id () }

/-- One turn of the loop over the absent ids. -/
def absentId (plan : Plan) (st : Owned) (pointer : Option Bytes) : Except Fault Owned := do
  let id ← lookup pointer
  let kind ← lookup plan.kinds[id]?
  demand (id.length == 17 && (kind == 1 || kind == 16) && !st.seen.contains id) INVALID_DATA
  return { st with seen := st.seen.insert id () }

/-- What the snapshot says about the planned keys. -/
def ownership (plan : Plan) (collection : Option Snapshot) (now : Int) : Except Fault Owned := do
  if plan.coins.isEmpty then
    return {}
  match collection with
  | none => throw (.failed E_NOTIMPL)
  | some c =>
    demand (c.structureSize == SNAPSHOT_SIZE && c.directCoverage == 1 &&
      c.satisfyingCoverage == 1 && c.unknownCount == 0 && c.sharedCoverage ≤ 1 &&
      0 ≤ c.observedAt && now < c.expiresAt && c.observedAt ≤ now &&
      c.expiresAt - c.observedAt ≤ 30) E_NOTIMPL
    let items ← lookup c.items
    let absentIds ← lookup c.absentIds
    demand (items.length ≤ 100 && absentIds.length ≤ 100) INVALID_DATA
    let st ← items.foldlM (ownItem plan now) {}
    let st ← absentIds.foldlM (absentId plan) st
    demand (st.seen.size == plan.kinds.size) E_NOTIMPL
    demand (!plan.entitled || st.owned.size == plan.coins.length) E_NOTIMPL
    return st

/-! ## Filling the arrays -/

section

variable [Platform]

/-- The largest `float`. -/
def FLOAT_MAX : Float := 3.4028234663852886e38

/-- `PageOwner::price` -/
def priceOf (o : Offer) : Except Fault StorePrice := do
  demand (o.price.isFinite && o.base.isFinite && !(o.price < 0) && !(o.base < o.price) &&
    !(FLOAT_MAX < o.base)) E_NOTIMPL
  let onSale := o.price < o.base
  match Platform.print o.currency o.base, Platform.print o.currency o.price with
  | some base, some price => return {
      basePrice := o.base.toFloat32, price := o.price.toFloat32, currencyCode := o.currency
      formattedBasePrice := base, formattedPrice := price
      isOnSale := onSale, saleEndDate := if onSale then o.end else 0 }
  | _, _ => throw (.failed E_NOTIMPL)

/-- The coin starts a product of the page. -/
def isFirst (plan : Plan) (i : Nat) (c : Coin) : Bool :=
  !plan.entitled || i == 0 || (plan.coins[i - 1]?.map Coin.id != some c.id)

def productCount (plan : Plan) : Nat :=
  if plan.entitled then
    (plan.coins.zipIdx.filter fun (c, i) =>
      i == 0 || (plan.coins[i - 1]?.map Coin.id != some c.id)).length
  else plan.coins.length

structure Filling where
  products : List StoreProduct
  skus : List StoreSku
  productIndex : Nat := 0

/-- What the first of its coins makes of a product. -/
def startProduct (owned : KeyMap CollectionItem) (c : Coin) (kind : UInt32) (i : Nat)
    (product : StoreProduct) : StoreProduct :=
  { product with
    storeId := c.id
    title := c.title
    description := c.description
    language := c.language
    inAppOfferToken := c.offerToken
    linkUri := utf8 "https://www.microsoft.com/store/productId/" ++ c.id
    productKind := kind
    isInUserCollection := owned.contains c.key
    skusCount := 0
    skus := i
    images := c.images
    keywords := c.keywords
    price := .blank [] }

def CollectionItem.data (item : CollectionItem) : CollectionData where
  acquiredDate := item.acquiredDate
  startDate := item.startDate
  endDate := item.endDate
  quantity := item.quantity
  isTrial := item.isTrial
  trialTimeRemainingInSeconds := item.trialSeconds
  campaignId := item.campaignId
  developerOfferId := item.developerOfferId

/-- The price of the first offer, if there is one. -/
def firstPrice (c : Coin) : Except Fault (Option StorePrice) :=
  match c.offers with
  | [] => return none
  | o :: _ => return some (← priceOf o)

/-- The product that a coin belongs to, before the coin is counted. -/
def openProduct (plan : Plan) (owned : KeyMap CollectionItem) (i : Nat) (c : Coin)
    (product : StoreProduct) : Except Fault StoreProduct :=
  if isFirst plan i c then do
    let kind ← lookup plan.kinds[c.key]?
    return startProduct owned c kind i product
  else
    return product

/-- The license that a SKU in the collection of the user reports. -/
def license (owned : KeyMap CollectionItem) (c : Coin) (inCollection : Bool) :
    Except Fault (Option CollectionItem) :=
  if inCollection then some <$> lookup owned[c.key]? else return none

/-- One turn of the loop over the coins. -/
def fillCoin (plan : Plan) (owned : KeyMap CollectionItem) (i : Nat) (c : Coin) (st : Filling) :
    Except Fault Filling := do
  let first := isFirst plan i c
  let productIndex := if i != 0 && first then st.productIndex + 1 else st.productIndex
  let product ← inside st.products[productIndex]?
  let sku ← inside st.skus[i]?
  let product ← openProduct plan owned i c product
  let price ← firstPrice c
  let product := { product with
    skusCount := product.skusCount + 1
    hasDigitalDownload := product.hasDigitalDownload || c.download
    price := if first then price.getD product.price else product.price }
  let data ← license owned c product.isInUserCollection
  let availabilities ← c.offers.mapM fun o => do
    return { availabilityId := o.id, price := ← priceOf o, endDate := o.end : StoreAvailability }
  return {
    products := st.products.set productIndex product
    skus := st.skus.set i { sku with
      skuId := c.sku, title := c.skuTitle, description := c.skuDescription
      language := c.skuLanguage, isInUserCollection := product.isInUserCollection
      images := c.skuImages, price := price.getD (.blank [])
      collectionData := data.map CollectionItem.data, availabilities }
    productIndex }

def fill (plan : Plan) (owned : KeyMap CollectionItem) : List Coin → Nat → Filling →
    Except Fault Filling
  | [], _, st => return st
  | c :: rest, i, st => do fill plan owned rest (i + 1) (← fillCoin plan owned i c st)

/-- `coin_page` -/
def coinPage (plan : Plan) (collection : Option Snapshot) (now : Int)
    (continuation : Option Bytes) : Except Fault Page := do
  let st ← ownership plan collection now
  let filling ← fill plan st.owned plan.coins 0 {
    products := List.replicate (productCount plan) {}
    skus := List.replicate plan.coins.length {} }
  return {
    products := filling.products
    skus := filling.skus
    continuation := continuation.filter fun text => !text.isEmpty }

end

/-! ## Ranges -/

/-- Products whose ranges follow each other from one index to another. -/
def Tiles : Nat → List StoreProduct → Nat → Prop
  | lo, [], hi => lo = hi
  | lo, p :: rest, hi => p.skus = lo ∧ 0 < p.skusCount ∧ Tiles (lo + p.skusCount) rest hi

theorem tiles_append {a b : List StoreProduct} {lo hi : Nat} :
    Tiles lo (a ++ b) hi ↔ ∃ mid, Tiles lo a mid ∧ Tiles mid b hi := by
  induction a generalizing lo with
  | nil =>
    constructor
    · exact fun h => ⟨lo, rfl, h⟩
    · rintro ⟨mid, rfl, h⟩
      exact h
  | cons p a ih =>
    rw [List.cons_append, Tiles, ih]
    constructor
    · intro ⟨hstart, hpos, mid, ha, hb⟩
      exact ⟨mid, ⟨hstart, hpos, ha⟩, hb⟩
    · intro ⟨mid, ⟨hstart, hpos, ha⟩, hb⟩
      exact ⟨hstart, hpos, mid, ha, hb⟩

theorem tiles_sum {products : List StoreProduct} {lo hi : Nat} (h : Tiles lo products hi) :
    lo + (products.map StoreProduct.skusCount).sum = hi := by
  induction products generalizing lo with
  | nil => exact h
  | cons p products ih =>
    rw [List.map_cons, List.sum_cons, ← Nat.add_assoc]
    exact ih h.2.2

theorem tiles_singleton {p : StoreProduct} {lo hi : Nat} :
    Tiles lo [p] hi ↔ p.skus = lo ∧ 0 < p.skusCount ∧ lo + p.skusCount = hi := Iff.rfl

/-! ## Products and coins -/

/-- How many products the coins before an index have started. -/
def started (plan : Plan) (i : Nat) : Nat :=
  ((plan.coins.zipIdx.take i).filter fun (c, i) => isFirst plan i c).length

theorem productCount_eq (plan : Plan) : productCount plan = started plan plan.coins.length := by
  have hall : plan.coins.zipIdx.take plan.coins.length = plan.coins.zipIdx := by
    rw [List.take_of_length_le]
    rw [List.length_zipIdx]
  unfold productCount started
  rw [hall]
  cases hentitled : plan.entitled with
  | true => simp only [isFirst, hentitled, if_true, Bool.not_true, Bool.false_or]
  | false => simp [isFirst, hentitled]

theorem started_succ {plan : Plan} {i : Nat} {c : Coin} (h : plan.coins[i]? = some c) :
    started plan (i + 1) = started plan i + if isFirst plan i c then 1 else 0 := by
  have hget : plan.coins.zipIdx[i]? = some (c, i) := by
    rw [List.getElem?_zipIdx, h]
    simp
  unfold started
  rw [List.take_add_one, hget, Option.toList_some, List.filter_append, List.length_append]
  cases hfirst : isFirst plan i c <;> simp [hfirst]

theorem started_mono {plan : Plan} {i j : Nat} (h : i ≤ j) : started plan i ≤ started plan j :=
  ((List.take_sublist_take_left h).filter _).length_le

/-! ## What is owned -/

theorem demand_eq_ok {condition : Bool} {hr : HResult} {u : Unit} :
    demand condition hr = .ok u ↔ condition = true := by
  cases condition <;> simp [demand]

theorem lookup_eq_ok {α : Type} {value : Option α} {a : α} :
    lookup value = .ok a ↔ value = some a := by
  cases value <;> simp [lookup]

theorem inside_eq_ok {α : Type} {value : Option α} {a : α} :
    inside value = .ok a ↔ value = some a := by
  cases value <;> simp [inside]

/-- A map is as large as the list of its keys. -/
theorem size_of_keys {β : Type} {m : KeyMap β} {keys : List Bytes} (hkeys : keys.Nodup)
    (h : ∀ k, k ∈ m ↔ k ∈ keys) : m.size = keys.length := by
  have hperm : m.keys.Perm keys :=
    (List.perm_ext_iff_of_nodup Std.ExtTreeMap.nodup_keys hkeys).mpr fun k => by
      rw [Std.ExtTreeMap.mem_keys, h]
  rw [← Std.ExtTreeMap.length_keys, hperm.length_eq]

/-- The ids of the owned items of a snapshot, as C strings. -/
def ownedIds (items : List CollectionItem) : List Bytes :=
  items.filterMap fun item => cString item.storeId

/-- What the loops know of the ids they have seen. -/
structure Owned.Valid (plan : Plan) (own gone : List Bytes) (st : Owned) : Prop where
  owned : ∀ k, k ∈ st.owned ↔ k ∈ own
  seen : ∀ k, k ∈ st.seen ↔ k ∈ own ++ gone
  distinct : (own ++ gone).Nodup
  planned : ∀ k ∈ own ++ gone, k ∈ plan.kinds

theorem Owned.Valid.item {plan : Plan} {now : Int} {own : List Bytes} {st st' : Owned}
    {item : CollectionItem} (hst : st.Valid plan own [])
    (h : ownItem plan now st item = .ok st') :
    ∃ id, cString item.storeId = some id ∧ st'.Valid plan (own ++ [id]) [] := by
  unfold ownItem at h
  simp only [bind_eq_ok, lookup_eq_ok, demand_eq_ok, pure_eq_ok, Bool.and_eq_true,
    Bool.not_eq_true'] at h
  obtain ⟨id, hid, kind, hkind, _, ⟨-, hfresh⟩, rfl⟩ := h
  have hmem : ∀ k, k ∈ own ++ [id] ↔ id = k ∨ k ∈ own := by
    intro k
    rw [List.mem_append, List.mem_singleton, or_comm, eq_comm]
  have hnew : id ∉ own := by
    have hseen := hst.seen id
    rw [List.append_nil] at hseen
    rw [← hseen, ← Std.ExtTreeMap.contains_iff_mem, hfresh]
    exact Bool.false_ne_true
  have hdistinct := hst.distinct
  rw [List.append_nil] at hdistinct
  refine ⟨id, hid, ?_, ?_, ?_, ?_⟩
  · intro k
    rw [hmem, Std.ExtTreeMap.mem_insert, hst.owned, Std.LawfulEqCmp.compare_eq_iff_eq]
  · intro k
    rw [List.append_nil, hmem, Std.ExtTreeMap.mem_insert, hst.seen, List.append_nil,
      Std.LawfulEqCmp.compare_eq_iff_eq]
  · rw [List.append_nil, List.nodup_append]
    refine ⟨hdistinct, List.nodup_singleton _, ?_⟩
    intro a ha b hb hab
    rw [hab, List.mem_singleton.mp hb] at ha
    exact hnew ha
  · intro k hk
    rw [List.append_nil, hmem] at hk
    rcases hk with rfl | hk
    · exact Std.ExtTreeMap.mem_iff_isSome_getElem?.mpr (by rw [hkind]; rfl)
    · exact hst.planned k (List.mem_append_left _ hk)

theorem Owned.Valid.absent {plan : Plan} {own gone : List Bytes} {st st' : Owned}
    {pointer : Option Bytes} (hst : st.Valid plan own gone)
    (h : absentId plan st pointer = .ok st') :
    ∃ id, pointer = some id ∧ st'.Valid plan own (gone ++ [id]) := by
  unfold absentId at h
  simp only [bind_eq_ok, lookup_eq_ok, demand_eq_ok, pure_eq_ok, Bool.and_eq_true,
    Bool.not_eq_true'] at h
  obtain ⟨id, hid, kind, hkind, _, ⟨-, hfresh⟩, rfl⟩ := h
  have hmem : ∀ k, k ∈ own ++ (gone ++ [id]) ↔ id = k ∨ k ∈ own ++ gone := by
    intro k
    rw [← List.append_assoc, List.mem_append, List.mem_singleton, or_comm, eq_comm]
  have hnew : id ∉ own ++ gone := by
    rw [← hst.seen, ← Std.ExtTreeMap.contains_iff_mem, hfresh]
    exact Bool.false_ne_true
  refine ⟨id, hid, hst.owned, ?_, ?_, ?_⟩
  · intro k
    rw [hmem, Std.ExtTreeMap.mem_insert, hst.seen, Std.LawfulEqCmp.compare_eq_iff_eq]
  · rw [← List.append_assoc, List.nodup_append]
    refine ⟨hst.distinct, List.nodup_singleton _, ?_⟩
    intro a ha b hb hab
    rw [hab, List.mem_singleton.mp hb] at ha
    exact hnew ha
  · intro k hk
    rw [hmem] at hk
    rcases hk with rfl | hk
    · exact Std.ExtTreeMap.mem_iff_isSome_getElem?.mpr (by rw [hkind]; rfl)
    · exact hst.planned k hk

theorem Owned.Valid.items {plan : Plan} {now : Int} {items : List CollectionItem}
    {own : List Bytes} {st st' : Owned} (hst : st.Valid plan own [])
    (h : items.foldlM (ownItem plan now) st = .ok st') :
    st'.Valid plan (own ++ ownedIds items) [] := by
  induction items generalizing own st with
  | nil =>
    cases h
    rw [ownedIds, List.filterMap_nil, List.append_nil]
    exact hst
  | cons item items ih =>
    rw [List.foldlM_cons, bind_eq_ok] at h
    obtain ⟨next, hnext, h⟩ := h
    obtain ⟨id, hid, hvalid⟩ := hst.item hnext
    have hrest := ih hvalid h
    rw [List.append_assoc] at hrest
    have hids : ownedIds (item :: items) = [id] ++ ownedIds items := by
      rw [ownedIds, List.filterMap_cons, hid]
      rfl
    rw [hids]
    exact hrest

theorem Owned.Valid.absents {plan : Plan} {pointers : List (Option Bytes)}
    {own gone : List Bytes} {st st' : Owned} (hst : st.Valid plan own gone)
    (h : pointers.foldlM (absentId plan) st = .ok st') :
    st'.Valid plan own (gone ++ pointers.filterMap id) := by
  induction pointers generalizing gone st with
  | nil =>
    cases h
    rw [List.filterMap_nil, List.append_nil]
    exact hst
  | cons pointer pointers ih =>
    rw [List.foldlM_cons, bind_eq_ok] at h
    obtain ⟨next, hnext, h⟩ := h
    obtain ⟨id', hid, hvalid⟩ := hst.absent hnext
    have hrest := ih hvalid h
    rw [List.append_assoc] at hrest
    rw [List.filterMap_cons_some (show id pointer = some id' from hid)]
    exact hrest

/-- The ids that a snapshot lists as owned, and those it lists as absent. -/
def Snapshot.owned (collection : Option Snapshot) : List Bytes :=
  ownedIds ((collection.bind Snapshot.items).getD [])

def Snapshot.absent (collection : Option Snapshot) : List Bytes :=
  ((collection.bind Snapshot.absentIds).getD []).filterMap id

theorem ownership_spec {plan : Plan} {collection : Option Snapshot} {now : Int} {st : Owned}
    (hplan : plan.Valid) (h : ownership plan collection now = .ok st) (hcoins : plan.coins ≠ []) :
    (Snapshot.owned collection ++ Snapshot.absent collection).Perm (plan.coins.map Coin.key) ∧
      (∀ k, k ∈ st.owned ↔ k ∈ Snapshot.owned collection) ∧
      (plan.entitled = true → ∀ c ∈ plan.coins, c.key ∈ st.owned) := by
  unfold ownership at h
  rw [if_neg (by simpa using hcoins)] at h
  cases collection with
  | none => cases h
  | some c =>
    simp only [bind_eq_ok, lookup_eq_ok, demand_eq_ok, pure_eq_ok, beq_iff_eq,
      Bool.or_eq_true, Bool.not_eq_true'] at h
    obtain ⟨_, -, items, hitems, absentIds, habsent, _, -, first, hfirst, last, hlast, _, hseen, _,
      howned, rfl⟩ := h
    have hstart : Owned.Valid plan [] [] {} :=
      ⟨fun k => by simp, fun k => by simp, List.nodup_nil, fun _ hk => by cases hk⟩
    have hvalid := (hstart.items hfirst).absents hlast
    rw [List.nil_append, List.nil_append] at hvalid
    have hown : Snapshot.owned (some c) = ownedIds items := by
      rw [Snapshot.owned, Option.bind_some, hitems]
      rfl
    have hgone : Snapshot.absent (some c) = absentIds.filterMap id := by
      rw [Snapshot.absent, Option.bind_some, habsent]
      rfl
    rw [hown, hgone]
    have hkinds : plan.kinds.size = plan.coins.length := by
      rw [size_of_keys hplan.keys hplan.kinds, List.length_map]
    have hsub : ∀ k ∈ ownedIds items ++ absentIds.filterMap id, k ∈ plan.coins.map Coin.key :=
      fun k hk => (hplan.kinds k).mp (hvalid.planned k hk)
    refine ⟨?_, hvalid.owned, ?_⟩
    · rw [size_of_keys hvalid.distinct hvalid.seen, hkinds] at hseen
      refine (hvalid.distinct.subperm hsub).perm_of_length_le ?_
      rw [List.length_map, hseen]
    · intro hentitled coin hcoin
      rw [hentitled] at howned
      have hdistinct := (List.nodup_append.mp hvalid.distinct).1
      have hall : last.owned.size = plan.coins.length := howned.resolve_left (by decide)
      rw [size_of_keys hdistinct hvalid.owned] at hall
      have hperm : (ownedIds items).Perm (plan.coins.map Coin.key) := by
        have hplanned := fun k hk => hsub k (List.mem_append_left _ hk)
        refine (hdistinct.subperm hplanned).perm_of_length_le ?_
        rw [List.length_map, hall]
      rw [hvalid.owned, hperm.mem_iff]
      exact List.mem_map_of_mem hcoin

/-! ## The arrays as they fill -/

theorem eq_of_isLE {a b : Bytes} (hab : (compare a b).isLE = true)
    (hba : (compare b a).isLE = true) : a = b := by
  have hswap : compare b a = (compare a b).swap := Std.OrientedCmp.eq_swap
  cases horder : compare a b with
  | eq => exact Std.LawfulEqCmp.eq_of_compare horder
  | lt =>
    rw [hswap, horder] at hba
    cases hba
  | gt =>
    rw [horder] at hab
    cases hab

/-- The coin that starts a product is the first with its id. -/
theorem isFirst_fresh {plan : Plan} (hplan : plan.Valid) {i : Nat} {c : Coin}
    (hc : plan.coins[i]? = some c) (hfirst : isFirst plan i c = true) :
    c.id ∉ (plan.coins.take i).map Coin.id := by
  intro hmem
  obtain ⟨a, ha, hid⟩ := List.mem_map.mp hmem
  obtain ⟨k, hk, rfl⟩ := List.mem_take_iff_getElem.mp ha
  obtain ⟨hi, rfl⟩ := List.getElem?_eq_some_iff.mp hc
  have hki : k < i := by omega
  cases hentitled : plan.entitled with
  | false =>
    have hnodup := hplan.single hentitled
    rw [List.Nodup, List.pairwise_map, List.pairwise_iff_getElem] at hnodup
    exact hnodup k i (by omega) hi hki hid
  | true =>
    have hsorted := List.pairwise_iff_getElem.mp (hplan.sorted hentitled)
    rw [isFirst, hentitled, Bool.not_true, Bool.false_or, Bool.or_eq_true, beq_iff_eq,
      bne_iff_ne] at hfirst
    have hpred : i - 1 < plan.coins.length := by omega
    have hprev : plan.coins[i - 1]? = some plan.coins[i - 1] := List.getElem?_eq_getElem hpred
    have hne := hfirst.resolve_left (by omega)
    rw [hprev] at hne
    apply hne
    by_cases hlast : k = i - 1
    · subst hlast
      exact congrArg some hid
    · have hle := hsorted k (i - 1) (by omega) (by omega) (by omega)
      have hge := hsorted (i - 1) i (by omega) hi (by omega)
      rw [hid] at hle
      exact congrArg some (eq_of_isLE hge hle)

/-- What holds of the arrays when the coins before an index are in them. -/
structure Filled (plan : Plan) (owned : KeyMap CollectionItem) (i : Nat) (st : Filling)
    (used : List StoreProduct) : Prop where
  products : st.products =
    used ++ List.replicate (started plan plan.coins.length - started plan i) ({} : StoreProduct)
  size : used.length = started plan i
  tiles : Tiles 0 used i
  owner : ∀ p ∈ used, ∀ j, p.skus ≤ j → j < p.skus + p.skusCount →
    plan.coins[j]?.map Coin.id = some p.storeId
  ids : ∀ p ∈ used, p.storeId ∈ (plan.coins.take i).map Coin.id
  distinct : (used.map StoreProduct.storeId).Nodup
  flags : plan.entitled = true → ∀ p ∈ used, p.isInUserCollection = true
  index : i = 0 ∧ st.productIndex = 0 ∨ 0 < i ∧ ∃ front p, used = front ++ [p] ∧
    st.productIndex = front.length ∧ plan.coins[i - 1]?.map Coin.id = some p.storeId
  skus : st.skus.length = plan.coins.length
  sku : ∀ j, j < i → ∃ s c, st.skus[j]? = some s ∧ plan.coins[j]? = some c ∧ s.skuId = c.sku ∧
    s.isInUserCollection = owned.contains c.key

/-- The product that a coin starts, and the one it adds to. -/
structure Touched (plan : Plan) (owned : KeyMap CollectionItem) (i : Nat) (c : Coin)
    (product product' : StoreProduct) : Prop where
  start : isFirst plan i c = true → product'.storeId = c.id ∧ product'.skus = i ∧
    product'.skusCount = 1 ∧ product'.isInUserCollection = owned.contains c.key
  extend : isFirst plan i c = false → product'.storeId = product.storeId ∧
    product'.skus = product.skus ∧ product'.skusCount = product.skusCount + 1 ∧
    product'.isInUserCollection = product.isInUserCollection

theorem fillCoin_touches [Platform] {plan : Plan} {owned : KeyMap CollectionItem} {i : Nat}
    {c : Coin} {st st' : Filling} (h : fillCoin plan owned i c st = .ok st') :
    ∃ product product' s', st.products[st'.productIndex]? = some product ∧
      st'.productIndex =
        (if i != 0 && isFirst plan i c then st.productIndex + 1 else st.productIndex) ∧
      st'.products = st.products.set st'.productIndex product' ∧ i < st.skus.length ∧
      st'.skus = st.skus.set i s' ∧ s'.skuId = c.sku ∧
      s'.isInUserCollection = product'.isInUserCollection ∧
      Touched plan owned i c product product' := by
  unfold fillCoin at h
  simp only [bind_eq_ok, inside_eq_ok, pure_eq_ok] at h
  obtain ⟨product, hproduct, sku, hsku, opened, hopened, price, -, data, -, availabilities, -,
    rfl⟩ := h
  refine ⟨product, _, _, hproduct, rfl, rfl, ?_, rfl, rfl, rfl, ?_, ?_⟩
  · exact (List.getElem?_eq_some_iff.mp hsku).1
  · intro hfirst
    rw [openProduct, if_pos hfirst] at hopened
    obtain ⟨kind, -, hopened⟩ := bind_eq_ok.mp hopened
    cases hopened
    exact ⟨rfl, rfl, rfl, rfl⟩
  · intro hfirst
    rw [openProduct, if_neg (by rw [hfirst]; exact Bool.false_ne_true), pure_eq_ok] at hopened
    rw [hopened]
    exact ⟨rfl, rfl, rfl, rfl⟩

section

variable {plan : Plan} {owned : KeyMap CollectionItem} {i : Nat} {c : Coin} {st st' : Filling}
  {used : List StoreProduct}

/-- The SKUs after a turn. -/
theorem Filled.sku_succ {s' : StoreSku} (hst : Filled plan owned i st used)
    (hc : plan.coins[i]? = some c) (hi : i < st.skus.length) (hskus : st'.skus = st.skus.set i s')
    (hid : s'.skuId = c.sku) (hflag : s'.isInUserCollection = owned.contains c.key) :
    ∀ j, j < i + 1 → ∃ s c, st'.skus[j]? = some s ∧ plan.coins[j]? = some c ∧ s.skuId = c.sku ∧
      s.isInUserCollection = owned.contains c.key := by
  intro j hj
  rw [hskus]
  by_cases hlast : j = i
  · subst hlast
    exact ⟨s', c, List.getElem?_set_self hi, hc, hid, hflag⟩
  · obtain ⟨s, c, hs, hrest⟩ := hst.sku j (by omega)
    refine ⟨s, c, ?_, hrest⟩
    rw [List.getElem?_set_ne (Ne.symm hlast)]
    exact hs

theorem take_succ_ids (hc : plan.coins[i]? = some c) :
    (plan.coins.take (i + 1)).map Coin.id = (plan.coins.take i).map Coin.id ++ [c.id] := by
  rw [List.take_add_one, hc, Option.toList_some, List.map_append, List.map_singleton]

variable [Platform]

/-- A coin that starts a product takes the next free one. -/
theorem Filled.start (hplan : plan.Valid)
    (hall : plan.entitled = true → ∀ c ∈ plan.coins, c.key ∈ owned)
    (hst : Filled plan owned i st used) (hc : plan.coins[i]? = some c)
    (hfirst : isFirst plan i c = true) (h : fillCoin plan owned i c st = .ok st') :
    ∃ used', Filled plan owned (i + 1) st' used' := by
  obtain ⟨product, p, s', hproduct, hindex, hproducts, hi, hskus, hid, hflag, htouched⟩ :=
    fillCoin_touches h
  obtain ⟨hstore, hskusAt, hcount, howned⟩ := htouched.start hfirst
  have hsucc := started_succ hc
  have hlt : i < plan.coins.length := (List.getElem?_eq_some_iff.mp hc).1
  have hmono : started plan (i + 1) ≤ started plan plan.coins.length := started_mono (by omega)
  have hfresh := isFirst_fresh hplan hc hfirst
  rw [hfirst, if_pos rfl] at hsucc
  have hnext : st'.productIndex = used.length := by
    rw [hindex, hfirst, Bool.and_true]
    rcases hst.index with ⟨rfl, hzero⟩ | ⟨hpos, front, last, hused, hlast, -⟩
    · have hempty : used.length = 0 := hst.size
      rw [hempty, hzero]
      rfl
    · rw [if_pos (bne_iff_ne.mpr (by omega)), hlast, hused, List.length_append]
      rfl
  refine ⟨used ++ [p], ?_, ?_, ?_, ?_, ?_, ?_, ?_, ?_, ?_, ?_⟩
  · obtain ⟨k, hk⟩ : ∃ k, started plan plan.coins.length - started plan i = k + 1 :=
      ⟨started plan plan.coins.length - started plan (i + 1), by omega⟩
    have hk' : started plan plan.coins.length - started plan (i + 1) = k := by omega
    rw [hproducts, hnext, hst.products, hk, hk', List.set_append_right _ _ (Nat.le_refl _),
      Nat.sub_self, List.replicate_succ, List.set_cons_zero, List.append_assoc]
    rfl
  · rw [List.length_append, hst.size, hsucc]
    rfl
  · rw [tiles_append]
    refine ⟨i, hst.tiles, ?_⟩
    rw [tiles_singleton, hskusAt, hcount]
    exact ⟨rfl, Nat.one_pos, rfl⟩
  · intro q hq j hlo hhi
    rcases List.mem_append.mp hq with hq | hq
    · exact hst.owner q hq j hlo hhi
    · rw [List.mem_singleton.mp hq] at hlo hhi ⊢
      have hj : j = i := by omega
      rw [hj, hc, hstore]
      rfl
  · intro q hq
    rw [take_succ_ids hc, List.mem_append, List.mem_singleton]
    rcases List.mem_append.mp hq with hq | hq
    · exact .inl (hst.ids q hq)
    · rw [List.mem_singleton.mp hq]
      exact .inr hstore
  · rw [List.map_append, List.nodup_append]
    refine ⟨hst.distinct, List.nodup_singleton _, ?_⟩
    intro a ha b hb hab
    obtain ⟨q, hq, rfl⟩ := List.mem_map.mp ha
    have hseen := hst.ids q hq
    rw [hab, List.mem_singleton.mp hb, hstore] at hseen
    exact hfresh hseen
  · intro hentitled q hq
    rcases List.mem_append.mp hq with hq | hq
    · exact hst.flags hentitled q hq
    · rw [List.mem_singleton.mp hq, howned, Std.ExtTreeMap.contains_iff_mem]
      exact hall hentitled c (List.mem_of_getElem? hc)
  · refine .inr ⟨Nat.succ_pos i, used, p, rfl, hnext, ?_⟩
    rw [Nat.add_sub_cancel, hc, hstore]
    rfl
  · rw [hskus, List.length_set]
    exact hst.skus
  · exact hst.sku_succ hc hi hskus hid (hflag.trans howned)

/-- Any other coin adds to the product before it. -/
theorem Filled.extend (hall : plan.entitled = true → ∀ c ∈ plan.coins, c.key ∈ owned)
    (hst : Filled plan owned i st used) (hc : plan.coins[i]? = some c)
    (hfirst : isFirst plan i c = false) (h : fillCoin plan owned i c st = .ok st') :
    ∃ used', Filled plan owned (i + 1) st' used' := by
  obtain ⟨product, p', s', hproduct, hindex, hproducts, hi, hskus, hid, hflag, htouched⟩ :=
    fillCoin_touches h
  obtain ⟨hstore, hskusAt, hcount, hsame⟩ := htouched.extend hfirst
  have hsucc := started_succ hc
  rw [hfirst, if_neg Bool.false_ne_true, Nat.add_zero] at hsucc
  rw [hfirst, Bool.and_false, if_neg Bool.false_ne_true] at hindex
  rw [isFirst, Bool.or_eq_false_iff, Bool.or_eq_false_iff, Bool.not_eq_false',
    beq_eq_false_iff_ne, bne_eq_false_iff_eq] at hfirst
  obtain ⟨⟨hentitled, hpos⟩, hprev⟩ := hfirst
  rcases hst.index with ⟨hzero, -⟩ | ⟨-, front, p, hused, hlast, hprevid⟩
  · exact absurd hzero hpos
  have hpid : p.storeId = c.id := by
    rw [hprev] at hprevid
    exact (Option.some.inj hprevid).symm
  have hp : product = p := by
    rw [hindex, hlast, hst.products, hused, List.append_assoc, List.getElem?_append_right
      (Nat.le_refl _), Nat.sub_self] at hproduct
    exact (Option.some.inj hproduct).symm
  rw [hp] at hstore hskusAt hcount hsame
  have hmem : p ∈ used := by
    rw [hused]
    exact List.mem_append_right _ List.mem_cons_self
  have htiles := hst.tiles
  rw [hused, tiles_append] at htiles
  obtain ⟨mid, hfront, hmid⟩ := htiles
  rw [tiles_singleton] at hmid
  obtain ⟨hpstart, hppos, hpend⟩ := hmid
  have hmap : (front ++ [p']).map StoreProduct.storeId = used.map StoreProduct.storeId := by
    rw [hused, List.map_append, List.map_append, List.map_singleton, List.map_singleton, hstore]
  refine ⟨front ++ [p'], ?_, ?_, ?_, ?_, ?_, ?_, ?_, ?_, ?_, ?_⟩
  · rw [hproducts, hindex, hlast, hst.products, hused, hsucc, List.append_assoc, List.append_assoc,
      List.set_append_right _ _ (Nat.le_refl _), Nat.sub_self]
    rfl
  · have hsize := hst.size
    rw [hused, List.length_append] at hsize
    rw [List.length_append, hsucc, ← hsize]
    rfl
  · rw [tiles_append]
    refine ⟨mid, hfront, ?_⟩
    rw [tiles_singleton, hskusAt, hcount]
    omega
  · intro q hq j hlo hhi
    rcases List.mem_append.mp hq with hq | hq
    · exact hst.owner q (by rw [hused]; exact List.mem_append_left _ hq) j hlo hhi
    · rw [List.mem_singleton.mp hq] at hlo hhi ⊢
      rw [hskusAt] at hlo hhi
      rw [hstore]
      by_cases hj : j = i
      · rw [hj, hc, hpid]
        rfl
      · exact hst.owner p hmem j hlo (by omega)
  · intro q hq
    rw [take_succ_ids hc]
    have hold : q.storeId ∈ used.map StoreProduct.storeId := by
      rw [← hmap]
      exact List.mem_map_of_mem hq
    obtain ⟨r, hr, hid'⟩ := List.mem_map.mp hold
    rw [← hid']
    exact List.mem_append_left _ (hst.ids r hr)
  · rw [hmap]
    exact hst.distinct
  · intro _ q hq
    rcases List.mem_append.mp hq with hq | hq
    · exact hst.flags hentitled q (by rw [hused]; exact List.mem_append_left _ hq)
    · rw [List.mem_singleton.mp hq, hsame]
      exact hst.flags hentitled p hmem
  · refine .inr ⟨Nat.succ_pos i, front, p', rfl, hindex.trans hlast, ?_⟩
    rw [Nat.add_sub_cancel, hc, hstore, hpid]
    rfl
  · rw [hskus, List.length_set]
    exact hst.skus
  · refine hst.sku_succ hc hi hskus hid ?_
    have hkey := hall hentitled c (List.mem_of_getElem? hc)
    rw [hflag, hsame, hst.flags hentitled p hmem, Std.ExtTreeMap.contains_iff_mem.mpr hkey]

/-- What one turn does to the arrays. -/
theorem Filled.step (hplan : plan.Valid)
    (hall : plan.entitled = true → ∀ c ∈ plan.coins, c.key ∈ owned)
    (hst : Filled plan owned i st used) (hc : plan.coins[i]? = some c)
    (h : fillCoin plan owned i c st = .ok st') : ∃ used', Filled plan owned (i + 1) st' used' := by
  cases hfirst : isFirst plan i c with
  | true => exact hst.start hplan hall hc hfirst h
  | false => exact hst.extend hall hc hfirst h

theorem Filled.run (hplan : plan.Valid)
    (hall : plan.entitled = true → ∀ c ∈ plan.coins, c.key ∈ owned) {rest : List Coin}
    (hst : Filled plan owned i st used) (hrest : plan.coins.drop i = rest)
    (h : fill plan owned rest i st = .ok st') :
    ∃ used', Filled plan owned (i + rest.length) st' used' := by
  induction rest generalizing i st used with
  | nil =>
    cases h
    exact ⟨used, hst⟩
  | cons c rest ih =>
    rw [fill, bind_eq_ok] at h
    obtain ⟨next, hnext, h⟩ := h
    have hc : plan.coins[i]? = some c := by
      rw [← List.head?_drop, hrest]
      rfl
    obtain ⟨used', hused⟩ := hst.step hplan hall hc hnext
    have hdrop : plan.coins.drop (i + 1) = rest := by
      rw [← List.tail_drop, hrest]
      rfl
    rw [List.length_cons, Nat.add_comm rest.length, ← Nat.add_assoc]
    exact ih hused hdrop h

omit [Platform] in
theorem Filled.empty (plan : Plan) (owned : KeyMap CollectionItem) :
    Filled plan owned 0 {
      products := List.replicate (productCount plan) {}
      skus := List.replicate plan.coins.length {} } [] where
  products := by
    rw [productCount_eq]
    rfl
  size := rfl
  tiles := rfl
  owner := fun _ h => by cases h
  ids := fun _ h => by cases h
  distinct := List.nodup_nil
  flags := fun _ _ h => by cases h
  index := .inl ⟨rfl, rfl⟩
  skus := List.length_replicate
  sku := fun j hj => by cases hj

/-! ## Accesses -/

/-- The computation does not leave an array. -/
def Safe {α : Type} (x : Except Fault α) : Prop := x ≠ .error .outside

omit [Platform]

theorem Safe.ok {α : Type} (a : α) : Safe (.ok a) := nofun

theorem Safe.bind {α β : Type} {x : Except Fault α} {f : α → Except Fault β} (hx : Safe x)
    (hf : ∀ a, x = .ok a → Safe (f a)) : Safe (x >>= f) := by
  cases x with
  | error e =>
    intro h
    cases h
    exact hx rfl
  | ok a => exact hf a rfl

theorem Safe.demand (condition : Bool) (hr : HResult) : Safe (demand condition hr) := by
  cases condition <;> nofun

theorem Safe.lookup {α : Type} (value : Option α) : Safe (lookup value) := by
  cases value <;> nofun

theorem Safe.inside {α : Type} {xs : List α} {i : Nat} (h : i < xs.length) :
    Safe (inside xs[i]?) := by
  rw [List.getElem?_eq_getElem h]
  exact Safe.ok _

theorem Safe.foldlM {α β : Type} {f : β → α → Except Fault β} (hf : ∀ b a, Safe (f b a))
    (rows : List α) (b : β) : Safe (rows.foldlM f b) := by
  induction rows generalizing b with
  | nil => exact Safe.ok b
  | cons row rows ih =>
    rw [List.foldlM_cons]
    exact (hf b row).bind fun b' _ => ih b'

theorem Safe.mapM {α β : Type} {f : α → Except Fault β} (hf : ∀ a, Safe (f a)) (rows : List α) :
    Safe (rows.mapM f) := by
  induction rows with
  | nil => exact Safe.ok []
  | cons row rows ih =>
    rw [List.mapM_cons]
    exact (hf row).bind fun _ _ => ih.bind fun _ _ => Safe.ok _

theorem Safe.ownership (plan : Plan) (collection : Option Snapshot) (now : Int) :
    Safe (ownership plan collection now) := by
  unfold Coins.ownership
  by_cases hempty : plan.coins.isEmpty = true
  · rw [if_pos hempty]
    exact Safe.ok _
  rw [if_neg hempty]
  cases collection with
  | none => nofun
  | some c =>
    refine (Safe.demand _ _).bind fun _ _ => (Safe.lookup _).bind fun items _ => ?_
    refine (Safe.lookup _).bind fun absentIds _ => (Safe.demand _ _).bind fun _ _ => ?_
    refine (Safe.foldlM ?_ items _).bind fun st _ => ?_
    · intro st item
      refine (Safe.lookup _).bind fun id _ => (Safe.lookup _).bind fun kind _ => ?_
      exact (Safe.demand _ _).bind fun _ _ => Safe.ok _
    refine (Safe.foldlM ?_ absentIds st).bind fun st _ => ?_
    · intro st pointer
      refine (Safe.lookup _).bind fun id _ => (Safe.lookup _).bind fun kind _ => ?_
      exact (Safe.demand _ _).bind fun _ _ => Safe.ok _
    exact (Safe.demand _ _).bind fun _ _ => (Safe.demand _ _).bind fun _ _ => Safe.ok st

variable [Platform]

theorem Safe.priceOf (o : Offer) : Safe (priceOf o) := by
  unfold Coins.priceOf
  refine (Safe.demand _ _).bind fun _ _ => ?_
  cases Platform.print o.currency o.base with
  | none => nofun
  | some base =>
    cases Platform.print o.currency o.price with
    | none => nofun
    | some price => exact Safe.ok _

theorem Safe.firstPrice (c : Coin) : Safe (firstPrice c) := by
  unfold Coins.firstPrice
  cases c.offers with
  | nil => exact Safe.ok _
  | cons o _ => exact (Safe.priceOf o).bind fun _ _ => Safe.ok _

omit [Platform] in
theorem Safe.openProduct (product : StoreProduct) : Safe (openProduct plan owned i c product) := by
  unfold Coins.openProduct
  cases isFirst plan i c with
  | true => exact (Safe.lookup _).bind fun _ _ => Safe.ok _
  | false => exact Safe.ok product

omit [Platform] in
theorem Safe.license (inCollection : Bool) : Safe (license owned c inCollection) := by
  cases inCollection with
  | true => exact (Safe.lookup _).bind fun _ _ => Safe.ok _
  | false => exact Safe.ok none

omit [Platform] in
/-- The product that a coin belongs to is there. -/
theorem Filled.index_lt (hst : Filled plan owned i st used) (hc : plan.coins[i]? = some c) :
    (if i != 0 && isFirst plan i c then st.productIndex + 1 else st.productIndex) <
      st.products.length := by
  have hsucc := started_succ hc
  have hlt : i < plan.coins.length := (List.getElem?_eq_some_iff.mp hc).1
  have hmono : started plan (i + 1) ≤ started plan plan.coins.length := started_mono (by omega)
  have hsize := hst.size
  rw [hst.products, List.length_append, List.length_replicate]
  rcases hst.index with ⟨hzero, hindex⟩ | ⟨hpos, front, p, hused, hindex, -⟩
  · subst hzero
    have hfirst : isFirst plan 0 c = true := by simp [isFirst]
    rw [hfirst, if_pos rfl] at hsucc
    rw [if_neg (by simp), hindex]
    omega
  · have hlength : used.length = front.length + 1 := by
      rw [hused, List.length_append]
      rfl
    cases hfirst : isFirst plan i c with
    | true =>
      rw [hfirst, if_pos rfl] at hsucc
      rw [Bool.and_true, if_pos (bne_iff_ne.mpr (by omega))]
      omega
    | false =>
      rw [Bool.and_false, if_neg Bool.false_ne_true]
      omega

theorem Filled.safe (hst : Filled plan owned i st used) (hc : plan.coins[i]? = some c) :
    Safe (fillCoin plan owned i c st) := by
  have hlt : i < plan.coins.length := (List.getElem?_eq_some_iff.mp hc).1
  have hskus := hst.skus
  unfold fillCoin
  refine (Safe.inside (hst.index_lt hc)).bind fun product _ => ?_
  refine (Safe.inside (by omega)).bind fun sku _ => (Safe.openProduct _).bind fun opened _ => ?_
  refine (Safe.firstPrice c).bind fun price _ => (Safe.license _).bind fun data _ => ?_
  refine Safe.bind ?_ fun _ _ => Safe.ok _
  exact Safe.mapM (fun o => (Safe.priceOf o).bind fun _ _ => Safe.ok _) c.offers

theorem Filled.run_safe (hplan : plan.Valid)
    (hall : plan.entitled = true → ∀ c ∈ plan.coins, c.key ∈ owned) {rest : List Coin}
    (hst : Filled plan owned i st used) (hrest : plan.coins.drop i = rest) :
    Safe (fill plan owned rest i st) := by
  induction rest generalizing i st used with
  | nil => exact Safe.ok st
  | cons c rest ih =>
    have hc : plan.coins[i]? = some c := by
      rw [← List.head?_drop, hrest]
      rfl
    have hdrop : plan.coins.drop (i + 1) = rest := by
      rw [← List.tail_drop, hrest]
      rfl
    refine (hst.safe hc).bind fun next hnext => ?_
    obtain ⟨used', hused⟩ := hst.step hplan hall hc hnext
    exact ih hused hdrop

end

/-! ## Pages of a plan -/

/-- The products of a page share out its SKUs, which are those of the plan. -/
structure Shared (plan : Plan) (page : Page) : Prop where
  skus : page.skus.length = plan.coins.length
  tiles : Tiles 0 page.products plan.coins.length
  counts : (page.products.map StoreProduct.skusCount).sum = plan.coins.length
  owner : ∀ p ∈ page.products, ∀ j, p.skus ≤ j → j < p.skus + p.skusCount →
    plan.coins[j]?.map Coin.id = some p.storeId
  distinct : (page.products.map StoreProduct.storeId).Nodup

theorem hall_owned {plan : Plan} {collection : Option Snapshot} {now : Int} {st : Owned}
    (hplan : plan.Valid) (h : ownership plan collection now = .ok st) :
    plan.entitled = true → ∀ c ∈ plan.coins, c.key ∈ st.owned := by
  intro hentitled c hc
  have hcoins : plan.coins ≠ [] := by
    intro hnil
    rw [hnil] at hc
    cases hc
  exact (ownership_spec hplan h hcoins).2.2 hentitled c hc

/-- The page of a plan: its SKUs are in the collection of the user exactly if the snapshot holds
their key, every planned key is settled once, and the products share out the SKUs in the order of
the plan.  Building it never leaves an array. -/
theorem coinPage_ownership [Platform] {q : Query} {ids : List Bytes} {plan : Plan}
    {requests : List RequestItem} (hplan : planCoins q ids = .ok (plan, requests))
    (collection : Option Snapshot) (now : Int) (continuation : Option Bytes) :
    coinPage plan collection now continuation ≠ .error .outside ∧
    ∀ page, coinPage plan collection now continuation = .ok page →
      (∀ j, j < plan.coins.length → ∃ s c, page.skus[j]? = some s ∧ plan.coins[j]? = some c ∧
        s.skuId = c.sku ∧
        (s.isInUserCollection = true ↔ c.key ∈ Snapshot.owned collection)) ∧
      (∀ c ∈ plan.coins,
        (Snapshot.owned collection ++ Snapshot.absent collection).count c.key = 1) ∧
      Shared plan page := by
  have hvalid := planCoins_valid hplan
  constructor
  · unfold coinPage
    refine (Safe.ownership plan collection now).bind fun st hst => ?_
    refine Safe.bind ?_ fun filling _ => Safe.ok _
    exact (Filled.empty plan st.owned).run_safe hvalid (hall_owned hvalid hst) List.drop_zero
  intro page h
  unfold coinPage at h
  simp only [bind_eq_ok, pure_eq_ok] at h
  obtain ⟨st, hst, filling, hfilling, rfl⟩ := h
  obtain ⟨used, hfilled⟩ :=
    (Filled.empty plan st.owned).run hvalid (hall_owned hvalid hst) List.drop_zero hfilling
  rw [Nat.zero_add] at hfilled
  have hproducts : filling.products = used := by
    rw [hfilled.products, Nat.sub_self, List.replicate_zero, List.append_nil]
  refine ⟨?_, ?_, hfilled.skus, ?_, ?_, ?_, ?_⟩
  · intro j hj
    have hcoins : plan.coins ≠ [] := by
      intro hnil
      rw [hnil] at hj
      cases hj
    obtain ⟨s, c, hs, hc, hid, hflag⟩ := hfilled.sku j hj
    refine ⟨s, c, hs, hc, hid, ?_⟩
    rw [hflag, Std.ExtTreeMap.contains_iff_mem]
    exact (ownership_spec hvalid hst hcoins).2.1 c.key
  · intro c hc
    have hcoins : plan.coins ≠ [] := by
      intro hnil
      rw [hnil] at hc
      cases hc
    have hperm := (ownership_spec hvalid hst hcoins).1
    rw [hperm.count_eq]
    exact List.count_eq_one_of_mem hvalid.keys (List.mem_map_of_mem hc)
  · rw [hproducts]
    exact hfilled.tiles
  · rw [hproducts, ← tiles_sum hfilled.tiles, Nat.zero_add]
  · rw [hproducts]
    exact hfilled.owner
  · rw [hproducts]
    exact hfilled.distinct

/-! ## A page of two owned SKUs -/

def skuDocument : String :=
  "\x7b\"Sku\":\x7b\"Properties\":\x7b\"IsTrial\":false,\"Packages\":[]\x7d," ++
  "\"RecurrencePolicy\":null,\"SubscriptionPolicyId\":null," ++
  "\"LocalizedProperties\":[]\x7d,\"Availabilities\":[]\x7d"

def gameDocument : String :=
  "\x7b\"Product\":\x7b\"LocalizedProperties\":[]," ++
  "\"DisplaySkuAvailabilities\":[" ++ skuDocument ++ "," ++ skuDocument ++ "]\x7d\x7d"

/-- A platform that knows this document. -/
@[reducible] def gamePlatform : Platform where
  parse bytes :=
    let sku := Json.object [("Availabilities", .array []), ("Sku", .object [
      ("LocalizedProperties", .array []),
      ("Properties", .object [("IsTrial", .boolean false), ("Packages", .array [])]),
      ("RecurrencePolicy", .null), ("SubscriptionPolicyId", .null)])]
    if bytes = utf8 gameDocument then
      some (.object [("Product", .object [
        ("DisplaySkuAvailabilities", .array [sku, sku]), ("LocalizedProperties", .array [])])])
    else none
  fileTime _ _ _ _ _ _ := none
  print _ _ := none

def gameText (title : String) : LocalizedText where
  language := utf8 "en-US"
  title := utf8 title
  description := []
  markets := [utf8 "AT"]
  images := []
  keywords := []

def gameQuery : Query where
  catalog := [{
    id := utf8 "ABCD1234EFGH", offerToken := [], kind := 2, localized := [gameText "Owned game"]
    skus := [⟨utf8 "0001", [gameText "First SKU"], []⟩, ⟨utf8 "0002", [gameText "Second SKU"], []⟩]
    rawJson := utf8 gameDocument }]
  kinds := 2
  actions := []
  parent := utf8 "ABCD1234EFGH"
  market := utf8 "AT"
  language := utf8 "en-US"
  now := 100
  entitled := true

def gameItem (key : String) : CollectionItem where
  storeId := utf8 key ++ [0]
  kind := 2
  acquiredDate := 10
  startDate := 10
  endDate := 200
  quantity := 1
  isTrial := 0
  trialSeconds := 0
  campaignId := none
  developerOfferId := none

def gameSnapshot : Snapshot where
  structureSize := SNAPSHOT_SIZE
  unknownCount := 0
  directCoverage := 1
  satisfyingCoverage := 1
  sharedCoverage := 0
  observedAt := 90
  expiresAt := 110
  items := some [gameItem "ABCD1234EFGH/0001", gameItem "ABCD1234EFGH/0002"]
  absentIds := some []

attribute [local instance] gamePlatform

theorem coinPage_ownership_game : ∃ plan requests page,
    planCoins gameQuery [utf8 "ABCD1234EFGH/0002", utf8 "ABCD1234EFGH/0001"] =
      .ok (plan, requests) ∧
    coinPage plan (some gameSnapshot) 100 none = .ok page ∧ Shared plan page := by
  have hok : (match planCoins gameQuery
      [utf8 "ABCD1234EFGH/0002", utf8 "ABCD1234EFGH/0001"] with
    | .ok (plan, _) => (coinPage plan (some gameSnapshot) 100 none).isOk
    | .error _ => false) = true := by decide +kernel
  cases hplan : planCoins gameQuery [utf8 "ABCD1234EFGH/0002", utf8 "ABCD1234EFGH/0001"] with
  | error e =>
    rw [hplan] at hok
    cases hok
  | ok result =>
    obtain ⟨plan, requests⟩ := result
    rw [hplan] at hok
    obtain ⟨page, hpage⟩ := exists_eq_ok hok
    have h := (coinPage_ownership hplan (some gameSnapshot) 100 none).2 page hpage
    exact ⟨plan, requests, page, rfl, hpage, h.2.2⟩

end Flightdeck.Store.Coins
