import Flightdeck.Foundation.Best
import Flightdeck.HResults
import Flightdeck.Network.Json
import Mathlib.Data.Prod.Lex

/-!
# The network security policy

`NetworkSecurity.cpp`: which endpoint of a policy document a request falls under, what a published
title document must look like, and how a title's policy and the defaults are combined.
-/

namespace Flightdeck.Network

open Foundation

/-- The `status` texts. -/
inductive Status where
  | invalid
  | unmatched
  | ambiguous
  | pinsUnsupported
  | tlsUnsupported
  | matchedUnpinned
  | matchedHttpsFallback
  | matchedTitleUnpinned
  | matchedTitleHttpsFallback
  | tlsConflict
  deriving DecidableEq

/-- What `parse_url` leaves of a URL; it refuses one without a host. -/
structure Url where
  hostAscii : Bytes
  path : List UInt16
  host_ne : hostAscii ≠ []

/-- `WINHTTP_FLAG_SECURE_PROTOCOL_TLS1_2` -/
def SECURE_PROTOCOL_TLS1_2 : UInt32 := 0x800

/-- The result of a selection, its flags, and the endpoint it rests on. -/
structure Selection where
  hr : HResult
  status : Status
  enabledHttpSecurityProtocolFlags : UInt32
  endpoint : Option Json

def Selection.refuse (hr : HResult) (status : Status) : Selection :=
  { hr, status, enabledHttpSecurityProtocolFlags := 0, endpoint := none }

/-! ## Documents -/

/-- `document["EndPoints"]`, where it is an array of at most 4096 entries. -/
def endPoints (document : Json) : Option (List Json) :=
  match document.get "EndPoints" with
  | some (.array rows) => if rows.length ≤ 4096 then some rows else none
  | _ => none

/-- `document["Certs"]`, where it is an array. -/
def certs (document : Json) : Option (List Json) :=
  match document.get "Certs" with
  | some (.array rows) => some rows
  | _ => none

/-- Whether an index names a certificate with a thumbprint. -/
def namesCert (certs : List Json) (index : Json) : Bool :=
  match index.longLong with
  | none => false
  | some i =>
    if i < 0 ∨ certs.length ≤ i then false
    else
      match certs[i.toNat]? with
      | none => false
      | some cert => (cert.stringAt "Thumbprint").isSome

/-! ## Matching an endpoint -/

def lower (c : UInt8) : UInt8 := if 65 ≤ c ∧ c ≤ 90 then c + 32 else c

def endsWith (value suffix : Bytes) : Bool := suffix.length < value.length && suffix.isSuffixOf value

/-- How specific a matching host is; an error for a host the code does not know. -/
def hostScore (url : Url) (authenticatedTitle : Bool) (size : Nat) (type host : Bytes) :
    Except HResult (Option Nat) :=
  if type = utf8 "fqdn" then
    .ok (if host = url.hostAscii then some (host.length * 2) else none)
  else if type = utf8 "wildcard" ∧ host = utf8 "*" then
    if size ≠ 3 then .error E_NOTIMPL
    else .ok (if authenticatedTitle then some 0 else none)
  else if type = utf8 "wildcard" ∧ 2 < host.length ∧ host.take 2 = utf8 "*." ∧
      (42 : UInt8) ∉ host.drop 1 then
    .ok (if endsWith url.hostAscii (host.drop 1) then some (host.length * 2 - 1) else none)
  else .error E_NOTIMPL

/-- A `char` as a `wchar_t`, which keeps its sign. -/
def widen (c : UInt8) : UInt16 := c.toInt8.toInt16.toUInt16

/-- A path matches the paths below it, and `/` ends a segment. -/
def pathMatches (url : Url) (path : Bytes) : Bool :=
  let wide := path.map widen
  path.isEmpty ||
    (wide.isPrefixOf url.path &&
      !(wide.length < url.path.length && wide.getLast? != some 47 &&
        url.path[wide.length]? != some 47))

/-- The scores of an endpoint's host and path. -/
abbrev Rank := Nat ×ₗ Nat

/-- One round of the loop over the endpoints: the rank of an endpoint that matches. -/
def verdict (url : Url) (authenticatedTitle : Bool) (entry : Json) : Except HResult (Option Rank) :=
  match entry.stringAt "Protocol", entry.stringAt "Host", entry.stringAt "HostType" with
  | some protocol, some host, some type =>
    if protocol ≠ utf8 "https" then .ok none
    else
      match hostScore url authenticatedTitle entry.size type (host.map lower) with
      | .error hr => .error hr
      | .ok none => .ok none
      | .ok (some score) =>
        match entry.get "Path" with
        | none => .ok (some (toLex (score, 0)))
        | some (.string path) =>
          .ok (if pathMatches url path then some (toLex (score, path.length)) else none)
        | some _ => .error INVALID_DATA
  | _, _, _ => .error INVALID_DATA

/-- The loop: the first of the most specific endpoints so far, and whether another one differs. -/
def bestMatch (url : Url) (authenticatedTitle : Bool) :
    Option (Best Json Rank) → List Json → Except HResult (Option (Best Json Rank))
  | best, [] => .ok best
  | best, entry :: rest =>
    match verdict url authenticatedTitle entry with
    | .error hr => .error hr
    | .ok none => bestMatch url authenticatedTitle best rest
    | .ok (some rank) =>
      bestMatch url authenticatedTitle (Best.consider Json.same best entry rank) rest

/-! ## The selected endpoint -/

def tlsRefusal (entry : Json) : Option (HResult × Status) :=
  match entry.get "MinTlsVersion" with
  | none => none
  | some (.string tls) =>
    if tls ∈ [utf8 "1.0", utf8 "1.1", utf8 "1.2"] then none
    else some (E_NOTIMPL, .tlsUnsupported)
  | some _ => some (INVALID_DATA, .invalid)

/-- Why the selected endpoint's own restrictions refuse the request. -/
def refusal (document entry : Json) : Option (HResult × Status) :=
  match entry.get "ServerCertIndex" with
  | none => tlsRefusal entry
  | some (.array indexes) =>
    match certs document with
    | none => some (INVALID_DATA, .invalid)
    | some certs =>
      if indexes.all (namesCert certs) = false then some (INVALID_DATA, .invalid)
      else if indexes.isEmpty = false then some (E_NOTIMPL, .pinsUnsupported)
      else tlsRefusal entry
  | some _ => some (INVALID_DATA, .invalid)

def matchedStatus (rank : Rank) : Status :=
  if (ofLex rank).1 ≠ 0 then .matchedUnpinned else .matchedHttpsFallback

def finish (document : Json) (best : Best Json Rank) : Selection :=
  if best.ambiguous then .refuse E_NOTIMPL .ambiguous
  else
    match refusal document best.value with
    | some (hr, status) => .refuse hr status
    | none =>
      { hr := S_OK, status := matchedStatus best.rank,
        enabledHttpSecurityProtocolFlags := SECURE_PROTOCOL_TLS1_2, endpoint := some best.value }

def selectPolicy (document : Json) (url : Url) (authenticatedTitle : Bool) : Selection :=
  match endPoints document with
  | none => .refuse INVALID_DATA .invalid
  | some rows =>
    match bestMatch url authenticatedTitle none rows with
    | .error hr => .refuse hr .invalid
    | .ok none => .refuse NOT_FOUND .unmatched
    | .ok (some best) => finish document best

/-- The texts of a combined success. -/
def combinedStatus (base extra : Selection) : Status :=
  if failed extra.hr then .matchedUnpinned
  else if extra.status = .matchedHttpsFallback then
    if failed base.hr then .matchedTitleHttpsFallback else .matchedUnpinned
  else .matchedTitleUnpinned

def combinedFlags (base extra : Selection) : UInt32 :=
  if failed extra.hr then base.enabledHttpSecurityProtocolFlags
  else if failed base.hr then extra.enabledHttpSecurityProtocolFlags
  else extra.enabledHttpSecurityProtocolFlags &&& base.enabledHttpSecurityProtocolFlags

/-- A refusal other than that nothing matched. -/
def Selection.refuses (s : Selection) : Bool := failed s.hr && s.hr != NOT_FOUND

/-- Both selections must pass, as far as each has an endpoint for the URL. -/
def combine (base extra : Selection) : Selection :=
  if base.refuses then .refuse base.hr base.status
  else if extra.refuses then .refuse extra.hr extra.status
  else if failed base.hr && failed extra.hr then .refuse NOT_FOUND .unmatched
  else if combinedFlags base extra = 0 then .refuse E_NOTIMPL .tlsConflict
  else
    { hr := S_OK, status := combinedStatus base extra,
      enabledHttpSecurityProtocolFlags := combinedFlags base extra,
      endpoint := if failed extra.hr then base.endpoint else extra.endpoint }

def selectTitlePolicy (title : Option Json) (url : Url) : Selection :=
  match title with
  | some title => selectPolicy title url true
  | none => .refuse NOT_FOUND .unmatched

def selectCombinedPolicy (defaults : Json) (title : Option Json) (url : Url) : Selection :=
  combine (selectPolicy defaults url false) (selectTitlePolicy title url)

/-! ## Published title documents -/

def validLabel (label : Bytes) : Bool :=
  label ≠ [] && label.length ≤ 63 && label.head? != some 45 && label.getLast? != some 45 &&
    label.all fun c =>
      (97 ≤ c && c ≤ 122) || (65 ≤ c && c ≤ 90) || (48 ≤ c && c ≤ 57) || c == 45

/-- An empty host, and one with a dot at its end, have an empty label. -/
def validPolicyHost (host : Bytes) : Bool := host.length ≤ 253 && (host.splitOn 46).all validLabel

def endpointFields : List String :=
  ["Protocol", "HostType", "Host", "Path", "MinTlsVersion", "ServerCertIndex", "RelyingParty",
    "SubRelyingParty", "TokenType", "SignaturePolicyIndex"]

def checkHost (type host : Bytes) : Except HResult Unit :=
  if type = utf8 "fqdn" then
    if validPolicyHost host then .ok () else .error INVALID_DATA
  else if type = utf8 "wildcard" then
    if host.length < 3 ∨ host.take 2 ≠ utf8 "*." ∨ validPolicyHost (host.drop 2) = false then
      .error INVALID_DATA
    else .ok ()
  else .error E_NOTIMPL

/-- The path of an endpoint, which may be left out. -/
def checkPath (entry : Json) : Except HResult Bytes :=
  match entry.get "Path" with
  | none => .ok []
  | some (.string path) =>
    if path ≠ [] ∧ (path.head? ≠ some 47 ∨ (path.any fun c => c ∈ utf8 "%\\?#") ∨
        utf8 "/." <:+: path) then
      .error E_NOTIMPL
    else if path.any fun c => c < 0x20 || 0x7e < c then .error E_NOTIMPL
    else .ok path
  | some _ => .error INVALID_DATA

def checkTls (entry : Json) : Except HResult Unit :=
  match entry.get "MinTlsVersion" with
  | none => .ok ()
  | some (.string _) => .ok ()
  | some _ => .error INVALID_DATA

def checkPins (certs : Option (List Json)) (entry : Json) : Except HResult Unit :=
  match entry.get "ServerCertIndex" with
  | none => .ok ()
  | some (.array indexes) =>
    match certs with
    | none => .error INVALID_DATA
    | some certs => if indexes.all (namesCert certs) then .ok () else .error INVALID_DATA
  | some _ => .error INVALID_DATA

def routeKey (protocol type host path : Bytes) : Bytes :=
  protocol ++ utf8 "\n" ++ type ++ utf8 "\n" ++ host.map lower ++ utf8 "\n" ++ path

/-- What becomes of an endpoint of a title document. -/
inductive Checked where
  | dropped
  | fallback
  | route (key : Bytes)
  deriving DecidableEq

/-- An endpoint that is not the bare `*`. -/
def checkRoute (certs : Option (List Json)) (entry : Json) (protocol type host : Bytes) :
    Except HResult Checked := do
  checkHost type host
  let path ← checkPath entry
  checkTls entry
  checkPins certs entry
  return .route (routeKey protocol type host path)

def checkEndPoint (certs : Option (List Json)) (entry : Json) : Except HResult Checked :=
  match entry with
  | .object fields =>
    if fields.any fun field => field.1 ∉ endpointFields then .error E_NOTIMPL
    else
      match entry.stringAt "Protocol", entry.stringAt "HostType", entry.stringAt "Host" with
      | some protocol, some type, some host =>
        if protocol ≠ utf8 "https" ∧ protocol ≠ utf8 "http" then .error E_NOTIMPL
        else if type = utf8 "wildcard" ∧ host = utf8 "*" then
          if entry.size ≠ 3 then .error E_NOTIMPL
          else .ok (if protocol = utf8 "https" then .fallback else .dropped)
        else checkRoute certs entry protocol type host
      | _, _, _ => .error INVALID_DATA
  | _ => .error INVALID_DATA

/-- The endpoints that are kept. Two endpoints of one route must be the same. -/
def checkEndPoints (certs : Option (List Json)) :
    List (Bytes × Json) → List Json → Except HResult (List Json)
  | _, [] => .ok []
  | routes, entry :: rest =>
    match checkEndPoint certs entry with
    | .error hr => .error hr
    | .ok .dropped => checkEndPoints certs routes rest
    | .ok .fallback => (checkEndPoints certs routes rest).map (entry :: ·)
    | .ok (.route key) =>
      match routes.lookup key with
      | some found =>
        if found.same entry then (checkEndPoints certs routes rest).map (entry :: ·)
        else .error E_NOTIMPL
      | none => (checkEndPoints certs ((key, entry) :: routes) rest).map (entry :: ·)

def validCerts (document : Json) : Bool :=
  match document.get "Certs" with
  | none => true
  | some (.array rows) => rows.length ≤ 4096
  | some _ => false

/-- The document with the endpoints that are kept. -/
def validateTitleDocument (document : Document) : Except HResult Json :=
  match endPoints document.json with
  | none => .error INVALID_DATA
  | some rows =>
    if validCerts document.json = false then .error INVALID_DATA
    else
      match checkEndPoints (certs document.json) [] rows with
      | .error hr => .error hr
      | .ok supported => .ok (document.json.set "EndPoints" (.array supported))

end Flightdeck.Network
