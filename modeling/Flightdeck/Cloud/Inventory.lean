import Flightdeck.Cloud.Reader

/-!
# The pages of the index

`Reader::inventory` against a service that may change between two requests: how many requests are
sent, what each of them carries, and what the pages had to say if the rows are returned.
-/

namespace Flightdeck.Cloud.Storage

open Foundation SaveState

/-! ## Requests -/

namespace Reader

variable {α β : Type}

theorem requests_bind_ok {x : Reader α} {f : α → Reader β} {a : α} (hx : x.result = .ok a) :
    (x >>= f).requests = x.requests ++ (f a).requests := by
  show (bind x f).requests = _
  unfold bind
  rw [hx]

theorem requests_bind_error {x : Reader α} {f : α → Reader β} {e : Failure}
    (hx : x.result = .error e) : (x >>= f).requests = x.requests := by
  show (bind x f).requests = _
  unfold bind
  rw [hx]

/-- A check sends nothing. -/
theorem requests_lift_bind {x : Except Failure α} {f : α → Reader β} {a : α} (hx : x = .ok a) :
    ((liftM x : Reader α) >>= f).requests = (f a).requests := by
  rw [requests_bind_ok (a := a) hx]
  rfl

@[simp] theorem requests_lift (x : Except Failure α) : (liftM x : Reader α).requests = [] := rfl

@[simp] theorem requests_pure (a : α) : (pure a : Reader α).requests = [] := rfl

/-- What follows sends no more than `n`. -/
theorem length_bind_le {x : Reader α} {f : α → Reader β} {n : Nat}
    (h : ∀ a, x.result = .ok a → (f a).requests.length ≤ n) :
    (x >>= f).requests.length ≤ x.requests.length + n := by
  cases hx : x.result with
  | error e =>
    rw [requests_bind_error hx]
    omega
  | ok a =>
    rw [requests_bind_ok hx, List.length_append]
    exact Nat.add_le_add_left (h a hx) _

end Reader

/-! ## Sorting -/

theorem byName_perm {α : Type} (name : α → String) (rows : List α) :
    (Import.byName name rows).Perm rows := List.perm_insertionSort _ _

theorem byName_pairwise {α : Type} (name : α → String) (rows : List α) :
    (Import.byName name rows).Pairwise fun a b => (byteOrder (name a) (name b)).isLE = true := by
  have htotal : Std.Total fun a b => (byteOrder (name a) (name b)).isLE = true :=
    ⟨fun a b => by
      have hswap : byteOrder (name b) (name a) = (byteOrder (name a) (name b)).swap :=
        Std.OrientedCmp.eq_swap
      rw [hswap]
      cases byteOrder (name a) (name b) <;> simp⟩
  have htrans : IsTrans α fun a b => (byteOrder (name a) (name b)).isLE = true :=
    ⟨fun a b c hab hbc => Std.TransCmp.isLE_trans hab hbc⟩
  exact List.pairwise_insertionSort _ rows

/-- Without a name twice the order is strict. -/
theorem byName_strict {α : Type} {name : α → String} {rows : List α}
    (h : (rows.map name).Nodup) :
    (Import.byName name rows).Pairwise fun a b => byteOrder (name a) (name b) = .lt := by
  have hnodup := ((byName_perm name rows).map name).nodup_iff.mpr h
  rw [List.Nodup, List.pairwise_map] at hnodup
  refine (List.Pairwise.and hnodup (byName_pairwise name rows)).imp ?_
  intro a b ⟨hne, hle⟩
  cases horder : byteOrder (name a) (name b) with
  | lt => rfl
  | eq => exact absurd (Std.LawfulEqCmp.eq_of_compare horder) hne
  | gt =>
    rw [horder] at hle
    cases hle

/-! ## Pages -/

section

variable (limits : Limits)

/-- A row of the index, read for itself. -/
def containerRow (row : Json) : Except Failure Container := do
  let name ← text (row.get "fileName") 1024 false
  let displayName ← text (row.get "displayName") 256 true
  let etag ← text (row.get "etag") 1024 false
  let clientFileTime ← fileTime (row.get "clientFileTime")
  let size ← number (row.get "size") limits.totalBytes
  return { name, displayName, etag, clientFileTime, size }

structure Page where
  rows : List Container
  total : Nat
  token : Option String

/-- A page, read for itself. -/
def Page.read [JsonText] (data : Bytes) : Except Failure Page := do
  let value ← json data
  let rows ← orElse (value.get "blobs").asArray .invalidResponse
  let (total, token) ← paging limits value
  return { rows := ← rows.mapM (containerRow limits), total, token }

/-- The loop of `Reader::inventory` where `servers n` answers the request after `n` others. -/
def changingLoop [JsonText] (servers : Nat → Server) : Nat → Listing → Reader (List Container)
  | 0, _ => liftM (m := Except Failure) (throw (.new .bounds))
  | pages + 1, st => do
    let data ← (servers 0).get (.index st.result.length st.continuation) limits.jsonBytes
    let (st, total, rows) ← inventoryPage limits st data
    match st.continuation with
    | none =>
      Cloud.require (st.result.length == total) .invalidResponse
      return Import.byName Container.name st.result
    | some token =>
      Cloud.require (rows && st.result.length < total && !st.tokens.contains token) .invalidResponse
      changingLoop (fun n => servers (n + 1)) pages { st with tokens := st.tokens.insert token () }

def changingInventory [JsonText] (servers : Nat → Server) : Reader (List Container) :=
  changingLoop limits servers limits.pages {}

/-- A service that does not change. -/
theorem changingLoop_constant [JsonText] (server : Server) (pages : Nat) (st : Listing) :
    changingLoop limits (fun _ => server) pages st = inventoryLoop limits server pages st := by
  induction pages generalizing st with
  | zero => rfl
  | succ pages ih =>
    simp only [changingLoop, inventoryLoop, ih] <;> rfl

variable {limits}

theorem inventoryRow_eq_ok {st st' : Listing} {row : Json} :
    inventoryRow limits st row = .ok st' ↔ ∃ c, containerRow limits row = .ok c ∧
      (c.name != "." && c.name != ".." && !st.names.contains c.name) = true ∧
      st.size + c.size ≤ limits.totalBytes ∧
      st' = { st with
        result := st.result ++ [c]
        names := st.names.insert c.name ()
        size := st.size + c.size } := by
  unfold inventoryRow containerRow
  simp only [bind_eq_ok, pure_eq_ok, require_eq_ok, decide_eq_true_eq]
  constructor
  · rintro ⟨name, hname, _, hfresh, displayName, hdisplay, etag, hetag, time, htime, size, hsize, _,
      hbound, hst⟩
    exact ⟨_, ⟨name, hname, displayName, hdisplay, etag, hetag, time, htime, size, hsize, rfl⟩,
      hfresh, hbound, hst.symm⟩
  · rintro ⟨c, ⟨name, hname, displayName, hdisplay, etag, hetag, time, htime, size, hsize, rfl⟩,
      hfresh, hbound, rfl⟩
    exact ⟨name, hname, (), hfresh, displayName, hdisplay, etag, hetag, time, htime, size, hsize,
      (), hbound, rfl⟩

/-- The names that were seen are those of the containers, each once. -/
structure Listing.Good (st : Listing) : Prop where
  nodup : (st.result.map Container.name).Nodup
  names : ∀ c ∈ st.result, st.names.contains c.name = true

theorem inventoryRow_good {st st' : Listing} {row : Json} (hst : st.Good)
    (h : inventoryRow limits st row = .ok st') : st'.Good := by
  obtain ⟨new, -, hfresh, -, rfl⟩ := inventoryRow_eq_ok.mp h
  simp only [Bool.and_eq_true, Bool.not_eq_true'] at hfresh
  constructor
  · show ((st.result ++ [new]).map Container.name).Nodup
    rw [List.map_append, List.nodup_append]
    refine ⟨hst.nodup, List.nodup_singleton _, ?_⟩
    intro a ha b hb hab
    obtain ⟨c, hc, rfl⟩ := List.mem_map.mp ha
    have hseen := hst.names c hc
    rw [hab, List.mem_singleton.mp hb, hfresh.2] at hseen
    cases hseen
  · intro c hc
    rw [Std.ExtTreeMap.contains_insert, Bool.or_eq_true]
    rcases List.mem_append.mp hc with hc | hc
    · exact .inr (hst.names c hc)
    · rw [List.mem_singleton.mp hc]
      exact .inl (by simp)

/-- The size so far is that of the containers, and within the limit. -/
structure Listing.Measured (limits : Limits) (st : Listing) : Prop where
  size : st.size = (st.result.map Container.size).sum
  bounded : st.size ≤ limits.totalBytes

theorem inventoryRow_measured {st st' : Listing} {row : Json} (hst : st.Measured limits)
    (h : inventoryRow limits st row = .ok st') : st'.Measured limits := by
  obtain ⟨new, -, -, hbound, rfl⟩ := inventoryRow_eq_ok.mp h
  constructor
  · show st.size + new.size = ((st.result ++ [new]).map Container.size).sum
    rw [List.map_append, List.sum_append, hst.size]
    rfl
  · exact hbound

theorem inventoryRows_good {rows : List Json} {st st' : Listing} (hst : st.Good)
    (h : rows.foldlM (inventoryRow limits) st = .ok st') : st'.Good := by
  induction rows generalizing st with
  | nil =>
    cases h
    exact hst
  | cons row rows ih =>
    rw [List.foldlM_cons, bind_eq_ok] at h
    obtain ⟨next, hnext, h⟩ := h
    exact ih (inventoryRow_good hst hnext) h

theorem inventoryRows_measured {rows : List Json} {st st' : Listing} (hst : st.Measured limits)
    (h : rows.foldlM (inventoryRow limits) st = .ok st') : st'.Measured limits := by
  induction rows generalizing st with
  | nil =>
    cases h
    exact hst
  | cons row rows ih =>
    rw [List.foldlM_cons, bind_eq_ok] at h
    obtain ⟨next, hnext, h⟩ := h
    exact ih (inventoryRow_measured hst hnext) h

/-- The rows of a page are added in order; the other variables stay. -/
theorem inventoryRows_added {rows : List Json} {st st' : Listing}
    (h : rows.foldlM (inventoryRow limits) st = .ok st') :
    ∃ added, rows.mapM (containerRow limits) = .ok added ∧ added.length = rows.length ∧
      st'.result = st.result ++ added ∧
      st'.tokens = st.tokens ∧ st'.expected = st.expected ∧ st'.continuation = st.continuation := by
  induction rows generalizing st with
  | nil =>
    cases h
    exact ⟨[], rfl, rfl, (List.append_nil _).symm, rfl, rfl, rfl⟩
  | cons row rows ih =>
    rw [List.foldlM_cons, bind_eq_ok] at h
    obtain ⟨next, hnext, h⟩ := h
    obtain ⟨new, hnew, -, -, rfl⟩ := inventoryRow_eq_ok.mp hnext
    obtain ⟨added, hadded, hlength, hresult, htokens, hexpected, hcontinuation⟩ := ih h
    refine ⟨new :: added, ?_, congrArg (· + 1) hlength, ?_, htokens, hexpected, hcontinuation⟩
    · rw [List.mapM_cons, hnew, hadded]
      rfl
    · rw [hresult, List.append_assoc]
      rfl

variable [JsonText]

/-- A page that is taken: what it says, and what it changes. -/
theorem inventoryPage_read {st st' : Listing} {data : Bytes} {total : Nat} {rows : Bool}
    (h : inventoryPage limits st data = .ok (st', total, rows)) :
    ∃ page, Page.read limits data = .ok page ∧ page.total = total ∧
      rows = !page.rows.isEmpty ∧ st.expected.all (· == total) = true ∧
      st'.expected = some total ∧ st'.continuation = page.token ∧ st'.tokens = st.tokens ∧
      st'.result = st.result ++ page.rows ∧ (st.Good → st'.Good) ∧
      (st.Measured limits → st'.Measured limits) := by
  unfold inventoryPage at h
  simp only [bind_eq_ok, pure_eq_ok, Prod.exists, Prod.mk.injEq, require_eq_ok] at h
  obtain ⟨value, hvalue, list, hlist, sum, token, hpaging, _, hsame, _, -, next, hnext, rfl, rfl,
    rfl⟩ := h
  obtain ⟨added, hadded, hlength, hresult, htokens, hexpected, hcontinuation⟩ :=
    inventoryRows_added hnext
  refine ⟨⟨added, sum, token⟩, ?_, rfl, ?_, hsame, ?_, hcontinuation, htokens, hresult, ?_, ?_⟩
  · unfold Page.read
    simp only [bind_eq_ok, pure_eq_ok, Prod.exists]
    exact ⟨value, hvalue, list, hlist, sum, token, hpaging, added, hadded, rfl⟩
  · cases list with
    | nil =>
      rw [List.length_eq_zero_iff.mp hlength]
      rfl
    | cons row list =>
      cases added with
      | nil => cases hlength
      | cons new added => rfl
  · rw [hexpected]
    cases hstart : st.expected with
    | none => rfl
    | some n =>
      rw [hstart] at hsame
      exact congrArg some (beq_iff_eq.mp hsame)
  · intro hst
    refine inventoryRows_good ?_ hnext
    exact ⟨hst.nodup, hst.names⟩
  · intro hst
    refine inventoryRows_measured ?_ hnext
    exact ⟨hst.size, hst.bounded⟩

/-! ## Runs -/

/-- No more requests than pages, whatever the service answers. -/
theorem changingLoop_requests_le (servers : Nat → Server) (pages : Nat) (st : Listing) :
    (changingLoop limits servers pages st).requests.length ≤ pages := by
  induction pages generalizing servers st with
  | zero => exact Nat.le_refl 0
  | succ pages ih =>
    rw [changingLoop, Nat.add_comm]
    refine Reader.length_bind_le fun data _ => ?_
    refine (Reader.length_bind_le fun next _ => ?_).trans (Nat.le_of_eq (Nat.zero_add pages))
    obtain ⟨next, total, rows⟩ := next
    show (match next.continuation with
      | none => _
      | some token => _ : Reader (List Container)).requests.length ≤ pages
    cases next.continuation with
    | none => exact (Reader.length_bind_le fun _ _ => Nat.zero_le pages).trans (by simp)
    | some token => exact (Reader.length_bind_le fun _ _ => ih _ _).trans (by simp)

/-- One request after the other: each names how many rows there are so far and the last token, and
its answer is the page. -/
def Paged (limits : Limits) : (Nat → Server) → Nat → Option String → List Page →
    List ReadOperation → Prop
  | servers, skip, token, page :: pages, op :: requests =>
    op = .index skip token ∧
    (∃ data, ((servers 0).get op limits.jsonBytes).result = .ok data ∧
      Page.read limits data = .ok page) ∧
    Paged limits (fun n => servers (n + 1)) (skip + page.rows.length) page.token pages requests
  | _, _, _, [], [] => True
  | _, _, _, _, _ => False

/-- What holds of the variables after some pages. -/
structure Seen (limits : Limits) (before : List Page) (st : Listing) : Prop where
  good : st.Good
  measured : st.Measured limits
  result : st.result = before.flatMap Page.rows
  expected : ∀ page ∈ before, st.expected = some page.total
  tokens : ∀ token ∈ before.filterMap Page.token, st.tokens.contains token = true
  distinct : (before.filterMap Page.token).Nodup

/-- What the pages of an index say about its rows. -/
structure Complete (limits : Limits) (pages : List Page) (rows : List Container) : Prop where
  concatenated : rows.Perm (pages.flatMap Page.rows)
  sorted : rows.Pairwise fun a b => byteOrder a.name b.name = .lt
  names : (rows.map Container.name).Nodup
  totals : ∀ page ∈ pages, page.total = rows.length
  size : (rows.map Container.size).sum ≤ limits.totalBytes
  tokens : (pages.filterMap Page.token).Nodup

omit [JsonText] in
theorem Seen.start (limits : Limits) : Seen limits [] {} where
  good := ⟨List.nodup_nil, fun _ h => by cases h⟩
  measured := ⟨rfl, Nat.zero_le _⟩
  result := rfl
  expected := fun _ h => by cases h
  tokens := fun _ h => by cases h
  distinct := List.nodup_nil

omit [JsonText] in
/-- The last page: without a token, and with the last of the rows. -/
theorem Seen.complete {before : List Page} {st st' : Listing} {page : Page}
    (hst : Seen limits before st) (hgood : st'.Good) (hmeasured : st'.Measured limits)
    (hresult : st'.result = st.result ++ page.rows)
    (hsame : st.expected.all (· == page.total) = true) (htoken : page.token = none)
    (htotal : st'.result.length = page.total) :
    Complete limits (before ++ [page]) (Import.byName Container.name st'.result) := by
  have hperm := byName_perm Container.name st'.result
  have hrows : st'.result = (before ++ [page]).flatMap Page.rows := by
    rw [hresult, hst.result, List.flatMap_append, List.flatMap_singleton]
  refine ⟨?_, byName_strict hgood.nodup, ?_, ?_, ?_, ?_⟩
  · rw [← hrows]
    exact hperm
  · exact (hperm.map Container.name).nodup_iff.mpr hgood.nodup
  · intro other hother
    rw [hperm.length_eq, htotal]
    rcases List.mem_append.mp hother with hmem | hmem
    · rw [hst.expected other hmem] at hsame
      exact beq_iff_eq.mp hsame
    · rw [List.mem_singleton.mp hmem]
  · rw [(hperm.map Container.size).sum_eq, ← hmeasured.size]
    exact hmeasured.bounded
  · rw [List.filterMap_append, List.filterMap_cons_none htoken, List.filterMap_nil,
      List.append_nil]
    exact hst.distinct

omit [JsonText] in
/-- A page with a new token. -/
theorem Seen.next {before : List Page} {st st' : Listing} {page : Page} {token : String}
    (hst : Seen limits before st) (hgood : st'.Good) (hmeasured : st'.Measured limits)
    (hresult : st'.result = st.result ++ page.rows)
    (hsame : st.expected.all (· == page.total) = true) (hexpected : st'.expected = some page.total)
    (htokens : st'.tokens = st.tokens) (htoken : page.token = some token)
    (hfresh : st.tokens.contains token = false) :
    Seen limits (before ++ [page]) { st' with tokens := st'.tokens.insert token () } := by
  have hlist : (before ++ [page]).filterMap Page.token =
      before.filterMap Page.token ++ [token] := by
    rw [List.filterMap_append, List.filterMap_cons_some htoken, List.filterMap_nil]
  refine ⟨⟨hgood.nodup, hgood.names⟩, ⟨hmeasured.size, hmeasured.bounded⟩, ?_, ?_, ?_, ?_⟩
  · show st'.result = _
    rw [hresult, hst.result, List.flatMap_append, List.flatMap_singleton]
  · intro other hother
    show st'.expected = _
    rw [hexpected]
    rcases List.mem_append.mp hother with hmem | hmem
    · rw [hst.expected other hmem] at hsame
      exact congrArg some (beq_iff_eq.mp hsame).symm
    · rw [List.mem_singleton.mp hmem]
  · rw [hlist]
    intro other hother
    show (st'.tokens.insert token ()).contains other = true
    rw [Std.ExtTreeMap.contains_insert, Bool.or_eq_true, htokens]
    rcases List.mem_append.mp hother with hmem | hmem
    · exact .inr (hst.tokens other hmem)
    · rw [List.mem_singleton.mp hmem]
      exact .inl (by simp)
  · rw [hlist, List.nodup_append]
    refine ⟨hst.distinct, List.nodup_singleton _, ?_⟩
    intro a ha b hb hab
    have hseen := hst.tokens a ha
    rw [hab, List.mem_singleton.mp hb, hfresh] at hseen
    cases hseen

theorem changingLoop_paged {servers : Nat → Server} {pages : Nat} {st : Listing}
    {before : List Page} {rows : List Container} (hst : Seen limits before st)
    (h : (changingLoop limits servers pages st).result = .ok rows) :
    ∃ after, Paged limits servers st.result.length st.continuation after
        (changingLoop limits servers pages st).requests ∧
      Complete limits (before ++ after) rows := by
  induction pages generalizing servers st before with
  | zero => cases h
  | succ pages ih =>
    rw [changingLoop] at h ⊢
    simp only [Reader.result_bind, bind_eq_ok, Reader.result_lift, Prod.exists] at h
    obtain ⟨data, hdata, next, total, some', hpage, h⟩ := h
    obtain ⟨page, hread, rfl, rfl, hsame, hexpected, hcontinuation, htokens, hresult, hgood,
      hmeasured⟩ := inventoryPage_read hpage
    rw [Reader.requests_bind_ok hdata, Reader.requests_bind_ok (a := (next, page.total, _)) hpage]
    cases htoken : next.continuation with
    | none =>
      rw [htoken] at hcontinuation
      simp only [htoken, Reader.result_bind, bind_eq_ok, Reader.result_lift, Reader.result_pure,
        Except.ok.injEq, require_eq_ok, beq_iff_eq] at h
      obtain ⟨_, htotal, rfl⟩ := h
      refine ⟨[page], ?_, hst.complete (hgood hst.good) (hmeasured hst.measured) hresult hsame
        hcontinuation.symm htotal⟩
      simp only [htoken]
      rw [Reader.requests_lift_bind (a := ()) (require_eq_ok.mpr (beq_iff_eq.mpr htotal))]
      exact ⟨rfl, ⟨data, hdata, hread⟩, trivial⟩
    | some token =>
      rw [htoken] at hcontinuation
      simp only [htoken, Reader.result_bind, bind_eq_ok, Reader.result_lift, require_eq_ok,
        Bool.and_eq_true, decide_eq_true_eq, Bool.not_eq_true'] at h
      obtain ⟨_, ⟨⟨hrows, hmore⟩, hfresh⟩, h⟩ := h
      rw [htokens] at hfresh
      have hnext := hst.next (hgood hst.good) (hmeasured hst.measured) hresult hsame hexpected
        htokens hcontinuation.symm hfresh
      rw [htoken] at hnext
      obtain ⟨after, hpaged, hcomplete⟩ := ih hnext h
      refine ⟨page :: after, ?_, ?_⟩
      · simp only [htoken]
        rw [Reader.requests_lift_bind (a := ()) (by simp [hmore, htokens, hfresh, hrows])]
        refine ⟨rfl, ⟨data, hdata, hread⟩, ?_⟩
        rw [← List.length_append, ← hresult, ← hcontinuation]
        exact hpaged
      · rw [List.append_assoc] at hcomplete
        exact hcomplete

/-- The index never names a container twice. -/
theorem inventory_nodup {server : Server} {rows : List Container}
    (h : (inventory limits server).result = .ok rows) : (rows.map Container.name).Nodup := by
  unfold inventory at h
  rw [← changingLoop_constant] at h
  obtain ⟨_, -, hcomplete⟩ := changingLoop_paged (Seen.start limits) h
  exact hcomplete.names

/-- Whatever pages the service sends, the index ends after at most `limits.pages` requests, and what
it returns are the rows of all pages in the order of their names. -/
theorem inventory_paged (limits : Limits) (servers : Nat → Server) :
    (changingInventory limits servers).requests.length ≤ limits.pages ∧
      ∀ rows, (changingInventory limits servers).result = .ok rows →
        ∃ pages, Paged limits servers 0 none pages (changingInventory limits servers).requests ∧
          Complete limits pages rows := by
  refine ⟨changingLoop_requests_le servers limits.pages {}, ?_⟩
  intro rows h
  exact changingLoop_paged (Seen.start limits) h

end

/-! ## A run -/

def indexPage (name token : String) : String :=
  "\x7b\"blobs\":[\x7b\"fileName\":\"" ++ name ++ "\",\"displayName\":\"\",\"etag\":\"one\"," ++
  "\"clientFileTime\":0,\"size\":3\x7d]," ++
  "\"pagingInfo\":\x7b\"continuationToken\":" ++ token ++ ",\"totalItems\":2\x7d\x7d"

/-- What the two pages decode to. -/
@[reducible] def indexJson : JsonText where
  decode bytes :=
    let page (name : String) (token : Json) : Json := .object [
      ("blobs", .array [.object [("fileName", .string name), ("displayName", .string ""),
        ("etag", .string "one"), ("clientFileTime", .number (some 0)),
        ("size", .number (some 3))]]),
      ("pagingInfo", .object [("continuationToken", token), ("totalItems", .number (some 2))])]
    if bytes = utf8 (indexPage "b" "\"more\"") then
      some (page "b" (.string "more"))
    else if bytes = utf8 (indexPage "a" "null") then
      some (page "a" .null)
    else
      none

/-- Two pages of one row each. -/
def indexServers (n : Nat) : Server where
  scope := ⟨"123", "aaaaaaaa-bbbb-cccc-dddd-eeeeeeeeeeee", "Test_abc", 123⟩
  read _ _ :=
    .ok ⟨200, ∅, utf8 (if n = 0 then indexPage "b" "\"more\"" else indexPage "a" "null")⟩

attribute [local instance] indexJson

theorem inventory_paged_twice : ∃ rows,
    (changingInventory {} indexServers).result = .ok rows ∧
      ∃ pages, Paged {} indexServers 0 none pages (changingInventory {} indexServers).requests ∧
        Complete {} pages rows := by
  have hok : (changingInventory {} indexServers).result.isOk = true := by decide +kernel
  obtain ⟨rows, hrows⟩ := exists_eq_ok hok
  exact ⟨rows, hrows, (inventory_paged {} indexServers).2 rows hrows⟩

end Flightdeck.Cloud.Storage
