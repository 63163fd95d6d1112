import Doupro.Go.Errors
import Doupro.Go.Url
import Doupro.Interaction.Syntax

/-!
# Requests to registries

What the registry client puts on the wire, and `http.Client.Do`, which follows redirects on
its own. A registry may answer anything.
-/

namespace Doupro.Registry

open Interaction Text

/-- `registry.Config`, without the transport settings. -/
structure Config where
  host : Text
  username : Text := []
  password : Text := []
  authHost : Text := []
  deriving DecidableEq

/-- Whose credentials a header holds. -/
inductive Source where
  | registry (cfg : Config)
  /-- The start-up credentials of Docker Hub. -/
  | dockerHub
  deriving DecidableEq

inductive Authorization where
  | basic (source : Source) (username password : Text)
  | bearer (token : Text)
  deriving DecidableEq

/-- What a request is for. -/
inductive Purpose where
  | manifest
  | page
  | token
  | ping
  deriving DecidableEq

structure Request where
  purpose : Purpose
  /-- The URL the caller asked for; a redirect leads on from it. -/
  initial : URL
  url : URL
  accept : Text := []
  authorization : Option Authorization := none
  /-- Query parameters set on top of those of the URL. -/
  params : List (Text × Text) := []
  deriving DecidableEq

/-- A decoded JSON body: the fields any of the functions decodes. -/
structure Body where
  token : Text := []
  accessToken : Text := []
  tags : List Text := []
  next : Text := []
  results : List (Text × Text) := []
  annotations : List (Text × Text) := []
  configDigest : Text := []
  /-- Operating system, architecture and digest of each manifest of an index. -/
  manifests : List (Text × Text × Text) := []
  labels : List (Text × Text) := []

structure Response where
  status : Nat
  /-- `Www-Authenticate`. -/
  challenge : Text := []
  link : Text := []
  location : Text := []
  /-- `Docker-Content-Digest`. -/
  contentDigest : Text := []
  /-- None if the body does not decode. -/
  body : Option Body := none

abbrev Wire : Signature := ⟨Request, fun _ => Except GoError Response⟩

/-- A function over requests on the wire. -/
abbrev Web (α : Type) := Program Wire α

/-- `redirectBehavior` of a GET request. -/
def isRedirect (status : Nat) : Bool := [301, 302, 303, 307, 308].contains status

/-- `isDomainOrSubdomain`. -/
def isDomainOrSubdomain (sub parent : Text) : Bool :=
  sub = parent || (!(contains sub [':'] || contains sub ['%']) && ('.' :: parent).isSuffixOf sub)

/-- `removeEmptyPort`. -/
def removeEmptyPort (host : Text) : Text := trimEnd [':'] host

/-- Where an answer redirects a request: nowhere, to no URL at all, or to the next request.
The credentials go along to the initial host and its subdomains, whatever the scheme. -/
inductive Redirect where
  | none
  | invalid
  | onward (next : Request)

def redirect (req : Request) (resp : Response) : Redirect :=
  if isRedirect resp.status = false ∨ resp.location = [] then .none
  else match URL.parse resp.location with
    | Option.none => .invalid
    | some location =>
      let url := req.url.resolveReference location
      let keep := isDomainOrSubdomain url.hostname req.initial.hostname
      .onward { req with url, authorization := if keep then req.authorization else Option.none, params := [] }

/-- The loop of `http.Client.Do`. Headers once left out stay out. -/
def follow : (redirects : Nat) → Request → Web (Except GoError Response)
  | 0, _ => return .error (.new "stopped after 10 redirects")
  | redirects + 1, req =>
    if req.url.scheme ≠ "https".toList ∧ req.url.scheme ≠ "http".toList then
      return .error (.new "unsupported protocol scheme")
    else if req.url.host = [] then return .error (.new "http: no Host in request URL")
    else do
      match ← .request (S := Wire) req with
      | .error err => return .error err
      | .ok resp => match redirect req resp with
        | .none => return .ok resp
        | .invalid => return .error (.new "failed to parse Location header")
        | .onward next => follow redirects next

/-- `http.Client.Do`. -/
def clientDo (req : Request) : Web (Except GoError Response) := follow 10 req

/-- `http.NewRequestWithContext` for a parsed URL. -/
def newRequest (purpose : Purpose) (u : URL) (accept : Text) (authorization : Option Authorization) :
    Request :=
  let url := { u with host := removeEmptyPort u.host }
  { purpose, initial := url, url, accept, authorization }

end Doupro.Registry
