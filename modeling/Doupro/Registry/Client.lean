import Doupro.Registry.Http
import Doupro.Registry.Versions
import Mathlib.Data.List.Dedup
import Mathlib.Data.List.Sort

/-!
# The registry client

The functions of the package that talk to a registry. `Registries` is the state they read:
the configuration by host and the start-up credentials of Docker Hub.
-/

namespace Doupro.Registry

open Interaction Text

/-- `registry.Ref`. -/
structure Ref where
  registry : Text
  repository : Text := []
  tag : Text := []
  deriving DecidableEq

structure Registries where
  /-- `configured.byHost`; each entry is stored under its own host. -/
  byHost : List Config := []
  dockerHubUsername : Text := []
  dockerHubPassword : Text := []

/-- `canonicalHost`. -/
def canonicalHost (host : Text) : Text :=
  let host := trimEnd ['/'] (trimStart "https://".toList (trimSpace (lower host)))
  if host = "docker.io".toList ∨ host = "index.docker.io".toList then "registry-1.docker.io".toList
  else host

/-- `ConfigForHost`. -/
def configForHost (r : Registries) (host : Text) : Option Config :=
  r.byHost.find? fun cfg => cfg.host = canonicalHost host

/-- `parseBearerChallenge`. -/
def parseBearerChallenge (header : Text) : List (Text × Text) :=
  let parts := (split ',' (trimSpace (trimStart "Bearer".toList header))).map trimSpace
  parts.foldl (fun out part => match cut '=' part with
    | (_, none) => out
    | (key, some value) =>
      out.filter (fun entry => entry.1 ≠ key) ++ [(key, trimChar '"' value)]) []

def param (params : List (Text × Text)) (key : String) : Text := (params.lookup key.toList).getD []

/-- A challenge for basic authentication. -/
def isBasic (challenge : Text) : Bool := "basic".toList.isPrefixOf (lower challenge)

def manifestAccept : Text :=
  ("application/vnd.docker.distribution.manifest.v2+json, " ++
    "application/vnd.docker.distribution.manifest.list.v2+json, " ++
    "application/vnd.oci.image.manifest.v1+json, application/vnd.oci.image.index.v1+json").toList

def errorf (text : String) : GoError := .new text

/-- The registry's v2 API. -/
def apiURL (registry path : Text) : Text := "https:".toList ++ ("//".toList ++ (registry ++ '/' :: path))

def manifestURL (ref : Ref) (reference : Text) : Text :=
  apiURL ref.registry ("v2/".toList ++ ref.repository ++ "/manifests/".toList ++ reference)

/-- Parse a URL and send a GET request to it. -/
def get (purpose : Purpose) (url accept : Text) (authorization : Option Authorization) :
    Web (Except GoError Response) :=
  match URL.parse url with
  | none => return .error (errorf ("parse " ++ String.ofList url))
  | some u => clientDo (newRequest purpose u accept authorization)

/-- A bearer header, unless the token is empty. -/
def bearerHeader (token : Text) : Option Authorization :=
  if token ≠ [] then some (.bearer token) else none

/-- The header of configured credentials. -/
def Config.header (cfg : Config) : Authorization := .basic (.registry cfg) cfg.username cfg.password

/-- `doManifestRequest`. -/
def doManifestRequest (url token : Text) : Web (Except GoError Response) := do
  match URL.parse url with
  | none => return .error (.wrap "build manifest request" (errorf ("parse " ++ String.ofList url)))
  | some u =>
    match ← clientDo (newRequest .manifest u manifestAccept (bearerHeader token)) with
    | .error err => return .error (.wrap "request manifest" err)
    | .ok resp => return .ok resp

/-- `doManifestRequestBasic`. -/
def doManifestRequestBasic (url : Text) (cfg : Config) : Web (Except GoError Response) :=
  get .manifest url manifestAccept (some cfg.header)

/-- The credentials of a token request: none, or a reason not to make it. -/
def realmAuthorization (r : Registries) (ref : Ref) (explicit : Option Config) (u : URL) :
    Except GoError (Option Authorization) :=
  let hub :=
    if r.dockerHubUsername ≠ [] ∧ contains u.host "docker.io".toList then
      some (.basic .dockerHub r.dockerHubUsername r.dockerHubPassword)
    else none
  match explicit.or (configForHost r ref.registry) with
  | none => .ok hub
  | some cfg =>
    if cfg.username = [] then .ok hub
    else if ¬ (equalFold u.host ref.registry ∨ (cfg.authHost ≠ [] ∧ equalFold u.host cfg.authHost)) then
      .error (errorf ("token realm host " ++ (String.ofList u.host).quote ++
        " is not trusted for registry " ++ (String.ofList ref.registry).quote))
    else if u.scheme ≠ "https".toList then
      .error (errorf "refusing credentials to non-HTTPS token realm")
    else .ok (some cfg.header)

/-- `authenticate`. -/
def authenticate (r : Registries) (challenge : Text) (ref : Ref) (explicit : Option Config) :
    Web (Except GoError Text) := do
  let params := parseBearerChallenge challenge
  if param params "realm" = [] then
    return .error (errorf ("no bearer challenge in WWW-Authenticate: " ++
      (String.ofList challenge).quote))
  else match URL.parse (param params "realm") with
    | none => return .error (errorf ("parse auth realm " ++ (String.ofList (param params "realm")).quote))
    | some u =>
      match realmAuthorization r ref explicit u with
      | .error err => return .error err
      | .ok authorization =>
        let set := [("service", param params "service"), ("scope", param params "scope")].filter
          fun entry => entry.2 ≠ []
        let req := { newRequest .token u [] authorization with
          params := set.map fun (key, value) => (key.toList, value) }
        match ← clientDo req with
        | .error err => return .error (.wrap "request auth token" err)
        | .ok resp =>
          if resp.status ≠ 200 then
            return .error (errorf ("auth token request: unexpected status " ++ toString resp.status))
          else match resp.body with
            | none => return .error (errorf "decode auth response")
            | some body => return .ok (if body.token ≠ [] then body.token else body.accessToken)

/-- The credentials `ConfigForHost` finds, if there are any. -/
def credentials (r : Registries) (ref : Ref) : Option Config :=
  (configForHost r ref.registry).filter fun cfg => cfg.username ≠ []

/-- `Digest`. -/
def digest (r : Registries) (ref : Ref) : Web (Except GoError Text) := do
  let url := manifestURL ref ref.tag
  let finish (answer : Except GoError Response) : Web (Except GoError Text) :=
    match answer with
    | .error err => return .error err
    | .ok resp =>
      if resp.status ≠ 200 then
        return .error (errorf ("manifest request: unexpected status " ++ toString resp.status))
      else if resp.contentDigest ≠ [] then return .ok resp.contentDigest
      else return .error (errorf "registry response had no Docker-Content-Digest header")
  match ← doManifestRequest url [] with
  | .error err => return .error err
  | .ok resp =>
    if resp.status = 401 then
      if isBasic resp.challenge then
        match credentials r ref with
        | none => return .error (errorf ("registry " ++ String.ofList ref.registry ++
            " requires basic authentication"))
        | some cfg => do finish (← doManifestRequestBasic url cfg)
      else
        match ← authenticate r resp.challenge ref none with
        | .error err => return .error (.wrap ("authenticate against " ++ String.ofList ref.registry) err)
        | .ok token => do finish (← doManifestRequest url token)
    else finish (.ok resp)

/-- A request that is repeated with what its challenge asks for. -/
def authenticatedGET (r : Registries) (send : Option Authorization → Web (Except GoError Response))
    (ref : Ref) (bearer : Text → Option Authorization) : Web (Except GoError Response) := do
  match ← send none with
  | .error err => return .error err
  | .ok resp =>
    if resp.status ≠ 401 then return .ok resp
    else if isBasic resp.challenge then
      match credentials r ref with
      | none => return .error (errorf "registry requires authentication")
      | some cfg => send (some cfg.header)
    else
      match ← authenticate r resp.challenge ref none with
      | .error err => return .error err
      | .ok token => send (bearer token)

/-- `authenticatedRegistryGET`. -/
def authenticatedRegistryGET (r : Registries) (url : Text) (ref : Ref) (accept : Text) :
    Web (Except GoError Response) :=
  authenticatedGET r (get .manifest url accept) ref fun token => some (.bearer token)

/-- The digest for this platform in an index, or the first one. -/
def selectManifest (platform : Text × Text) (manifests : List (Text × Text × Text)) : Text :=
  let selected := match manifests.find? fun m => m.1 = platform.1 ∧ m.2.1 = platform.2 with
    | some m => m.2.2
    | none => []
  if selected ≠ [] then selected else (manifests.head?.map fun m => m.2.2).getD []

def statusError (what : String) (status : Nat) : GoError :=
  errorf (what ++ ": unexpected status " ++ toString status)

/-- The version in the labels of an image's config. -/
def blobVersion (r : Registries) (ref : Ref) (configDigest : Text) : Web (Except GoError Text) := do
  let url := apiURL ref.registry ("v2/".toList ++ ref.repository ++ "/blobs/".toList ++ configDigest)
  let accept := ("application/vnd.oci.image.config.v1+json, " ++
    "application/vnd.docker.container.image.v1+json").toList
  match ← authenticatedRegistryGET r url ref accept with
  | .error err => return .error err
  | .ok resp =>
    if resp.status ≠ 200 then return .error (statusError "image config request" resp.status)
    else match resp.body with
      | none => return .error (errorf "decode registry image config")
      | some body => return .ok (versionFromLabels body.labels ref.repository)

/-- `versionLabelForManifest`, with the levels of indexes it may still enter. -/
def versionLabelForManifest (r : Registries) (platform : Text × Text) (ref : Ref) :
    (levels : Nat) → (reference : Text) → Web (Except GoError Text)
  | 0, _ => return .ok []
  | levels + 1, reference => do
    match ← authenticatedRegistryGET r (manifestURL ref reference) ref manifestAccept with
    | .error err => return .error err
    | .ok resp =>
      if resp.status ≠ 200 then return .error (statusError "manifest config request" resp.status)
      else match resp.body with
        | none => return .error (errorf "decode registry manifest config")
        | some body =>
          if versionFromLabels body.annotations ref.repository ≠ [] then
            return .ok (versionFromLabels body.annotations ref.repository)
          else if body.configDigest = [] then
            if selectManifest platform body.manifests = [] then return .ok []
            else versionLabelForManifest r platform ref levels (selectManifest platform body.manifests)
          else blobVersion r ref body.configDigest

/-- `VersionLabelForDigest`. -/
def versionLabelForDigest (r : Registries) (platform : Text × Text) (ref : Ref) (digest : Text) :
    Web (Except GoError Text) :=
  versionLabelForManifest r platform ref 2 digest

/-! ### Tags -/

/-- `tagsRequest`. -/
def tagsRequest (r : Registries) (url : URL) (ref : Ref) : Web (Except GoError Response) :=
  authenticatedGET r (fun authorization => clientDo (newRequest .page url [] authorization)) ref
    bearerHeader

/-- `nextTagPage`. -/
def nextTagPage (current : URL) (link : Text) : Option URL :=
  match cut '<' link with
  | (_, none) => none
  | (before, some rest) => match cut '>' link with
    | (_, none) => none
    | (upTo, some after) =>
      if upTo.length ≤ before.length then none
      else if contains ('>' :: after) "rel=\"next\"".toList then
        (URL.parse (rest.take (upTo.length - before.length - 1))).map current.resolveReference
      else none

def maxTagPages : Nat := 20

/-- The loop of `ListTags`. -/
def listTagPages (r : Registries) (ref : Ref) :
    (pages : Nat) → (next : URL) → (out : List Text) → Web (Except GoError (List Text))
  | 0, _, out => return .ok out
  | pages + 1, next, out => do
    match ← tagsRequest r next ref with
    | .error err => return .error err
    | .ok resp =>
      if resp.status ≠ 200 then return .error (statusError "tags request" resp.status)
      else match resp.body with
        | none => return .error (errorf "decode tags response")
        | some body =>
          let out := out ++ (body.tags.filter fun tag => tag ∉ out).dedup
          match nextTagPage next resp.link with
          | none => return .ok out
          | some next => listTagPages r ref pages next out

/-- `ListTags`. -/
def listTags (r : Registries) (ref : Ref) : Web (Except GoError (List Text)) :=
  let first := apiURL ref.registry ("v2/".toList ++ ref.repository ++ "/tags/list?n=10000".toList)
  match URL.parse first with
  | none => return .error (errorf ("parse " ++ String.ofList first))
  | some url => listTagPages r ref maxTagPages url []

/-- An entry of a map set. -/
def put (key : Text) (value : Text) (m : List (Text × Text)) : List (Text × Text) :=
  m.filter (fun entry => entry.1 ≠ key) ++ [(key, value)]

/-- What the loop of `ListDockerHubTags` keeps. -/
structure HubScan where
  tags : List (Text × Text) := []
  /-- The digests still wanted. -/
  wanted : List Text
  remaining : Int

/-- One result of a page. -/
def HubScan.add (s : HubScan) (result : Text × Text) : HubScan :=
  if result.2 = [] then s
  else
    let s := { s with tags := put result.1 result.2 s.tags }
    if result.2 ∈ s.wanted ∧ isVersionTag result.1 then
      { s with wanted := s.wanted.filter (· ≠ result.2), remaining := s.remaining - 1 }
    else s

def hubTagsMaxPages : Nat := 20

/-- The loop of `ListDockerHubTags`; `bounded` tells that some digest is wanted. -/
def listHubPages (bounded : Bool) : (pages : Nat) → (next : Text) → HubScan →
    Web (Except GoError (List (Text × Text)))
  | 0, _, s => return .ok s.tags
  | pages + 1, next, s =>
    if next = [] then return .ok s.tags
    else do
      match ← get .page next [] none with
      | .error err => return .error err
      | .ok resp =>
        if resp.status ≠ 200 then return .error (statusError "tags request" resp.status)
        else match resp.body with
          | none => return .error (errorf "decode tags response")
          | some body =>
            let s := body.results.foldl HubScan.add s
            if bounded ∧ s.remaining ≤ 0 then return .ok s.tags
            else listHubPages bounded pages body.next s

/-- `ListDockerHubTags`. -/
def listDockerHubTags (repo : Text) (wanted : List (Text × Bool)) :
    Web (Except GoError (List (Text × Text))) :=
  let url := apiURL "hub.docker.com".toList ("v2/repositories/".toList ++ repo ++
    "/tags?page_size=100&ordering=last_updated".toList)
  listHubPages (!wanted.isEmpty) hubTagsMaxPages url
    { wanted := (wanted.filter Prod.snd).map Prod.fst, remaining := wanted.length }

/-- How a `manifestSession` authenticates. -/
inductive SessionAuth where
  | anonymous
  | basic (cfg : Config)
  | bearer (token : Text)

/-- The request of `manifestSession.digest`. -/
def sessionRequest (url : Text) : SessionAuth → Web (Except GoError Response)
  | .anonymous => doManifestRequest url []
  | .basic cfg => doManifestRequestBasic url cfg
  | .bearer token => doManifestRequest url token

/-- The end of `manifestSession.digest`. -/
def sessionDigest (auth : SessionAuth) : Except GoError Response → SessionAuth × Except GoError Text
  | .error err => (auth, .error err)
  | .ok resp =>
    if resp.status ≠ 200 then (auth, .error (statusError "manifest request" resp.status))
    else if resp.contentDigest = [] then
      (auth, .error (errorf "registry response had no Docker-Content-Digest header"))
    else (auth, .ok resp.contentDigest)

/-- `manifestSession.digest`: what the session learned, and the digest of a tag. -/
def manifestSessionDigest (r : Registries) (ref : Ref) (auth : SessionAuth) (tag : Text) :
    Web (SessionAuth × Except GoError Text) := do
  let url := manifestURL ref tag
  match ← sessionRequest url auth with
  | .error err => return (auth, .error err)
  | .ok resp => match auth with
    | .anonymous =>
      if resp.status ≠ 401 then return sessionDigest auth (.ok resp)
      else if isBasic resp.challenge then
        match credentials r ref with
        | none => return (auth, .error (errorf "registry requires authentication"))
        | some cfg => return sessionDigest (.basic cfg) (← sessionRequest url (.basic cfg))
      else
        match ← authenticate r resp.challenge ref none with
        | .error err => return (auth, .error err)
        | .ok token => return sessionDigest (.bearer token) (← sessionRequest url (.bearer token))
    | _ => return sessionDigest auth (.ok resp)

/-- The order of the candidates: more components, then shorter, then the greater text. -/
def before (a b : Text) : Bool :=
  if a.count '.' ≠ b.count '.' then b.count '.' < a.count '.'
  else if a.length ≠ b.length then a.length < b.length
  else b < a

/-- What the loop of `ResolveVersionTags` keeps. -/
structure Resolution where
  remaining : List Text
  resolved : List (Text × Text) := []
  lastErr : Option GoError := none

/-- The loop of `ResolveVersionTags`. -/
def resolveCandidates (r : Registries) (ref : Ref) :
    List Text → SessionAuth → Resolution → Web Resolution
  | [], _, s => return s
  | tag :: rest, auth, s => do
    match ← manifestSessionDigest r ref auth tag with
    | (auth, .error err) => resolveCandidates r ref rest auth { s with lastErr := some err }
    | (auth, .ok digest) =>
      if digest ∈ s.remaining then
        let s := { s with
          remaining := s.remaining.filter (· ≠ digest), resolved := put tag digest s.resolved }
        if s.remaining = [] then return s else resolveCandidates r ref rest auth s
      else resolveCandidates r ref rest auth s

/-- `ResolveVersionTags`. -/
def resolveVersionTags (r : Registries) (ref : Ref) (wanted : List (Text × Bool)) :
    Web (Except GoError (List (Text × Text))) := do
  if ref.registry = "registry-1.docker.io".toList then listDockerHubTags ref.repository wanted
  else
    match ← listTags r ref with
    | .error err => return .error err
    | .ok tags =>
      let candidates := (tags.filter isVersionTag).insertionSort fun a b => before a b = true
      let s ← resolveCandidates r ref candidates .anonymous
        { remaining := (wanted.filter Prod.snd).map Prod.fst }
      match s.resolved, s.lastErr with
      | [], some err => return .error err
      | resolved, _ => return .ok resolved

/-! ### Connection test -/

/-- `TestConnection`. -/
def testConnection (r : Registries) (cfg : Config) : Web (Except GoError Unit) := do
  let cfg := { cfg with host := canonicalHost cfg.host }
  let host := String.ofList cfg.host
  let finish (answer : Except GoError Response) : Except GoError Unit := match answer with
    | .error err => .error (.wrap ("authenticate to registry " ++ host) err)
    | .ok resp =>
      if resp.status < 200 ∨ 300 ≤ resp.status then
        .error (errorf ("registry " ++ host ++ " v2 check returned " ++ toString resp.status))
      else .ok ()
  if cfg.host = [] then return .error (errorf "registry host is required")
  else
    let endpoint := apiURL cfg.host "v2/".toList
    match ← get .ping endpoint [] none with
    | .error err => return .error (.wrap ("connect to registry " ++ host) err)
    | .ok resp =>
      if resp.status ≠ 401 then return finish (.ok resp)
      else if isBasic resp.challenge then
        if cfg.username = [] then
          return .error (errorf ("registry " ++ host ++ " requires credentials"))
        else return finish (← get .ping endpoint [] (some cfg.header))
      else
        match ← authenticate r resp.challenge { registry := cfg.host } (some cfg) with
        | .error err => return .error err
        | .ok token => return finish (← get .ping endpoint [] (some (.bearer token)))

end Doupro.Registry
