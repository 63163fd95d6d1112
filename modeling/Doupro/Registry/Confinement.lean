import Doupro.Interaction.Threads
import Doupro.Registry.Client

/-!
# Where credentials go

Every request that carries credentials goes over HTTPS to a host the credentials belong to,
as long as three kinds of answers do not occur: a redirect that takes them elsewhere, a foreign
page of tags that asks for basic authentication, and a realm whose host only contains the
name of Docker Hub. A registry may answer anything else.
-/

namespace Doupro.Registry

open Interaction Text

/-- Docker Hub's own hosts. -/
def hubHost (name : Text) : Bool :=
  name.map foldRune = "docker.io".toList || ".docker.io".toList.isSuffixOf (name.map foldRune)

/-- A URL the credentials may be sent to: HTTPS, and the registry's own host or its
configured `auth_host`, or a host of Docker Hub. -/
def Source.Owns (u : URL) : Source → Prop
  | .registry cfg => u.scheme = "https".toList ∧
    (equalFold u.host (removeEmptyPort cfg.host) = true ∨
      (cfg.authHost ≠ [] ∧ equalFold u.host (removeEmptyPort cfg.authHost) = true))
  | .dockerHub => u.scheme = "https".toList ∧ hubHost u.hostname = true

instance (u : URL) : (source : Source) → Decidable (source.Owns u)
  | .registry _ => inferInstanceAs (Decidable (_ ∧ _))
  | .dockerHub => inferInstanceAs (Decidable (_ ∧ _))

/-- A request keeps basic credentials to the hosts they belong to. -/
def Confined (req : Request) : Prop := match req.authorization with
  | some (.basic source _ _) => source.Owns req.url
  | _ => True

instance (req : Request) : Decidable (Confined req) := by
  unfold Confined
  split <;> infer_instance

/-- The configured account that answers for a registry. -/
def account (r : Registries) (ref : Ref) (explicit : Option Config) : Option Config :=
  (explicit.or (configForHost r ref.registry)).filter fun cfg => cfg.username ≠ []

/-- A `Location` on the initial host or below it, where `http.Client` takes credentials along,
is an HTTPS URL of a host that owns them. -/
def RedirectHeeds (req : Request) (resp : Response) : Prop :=
  match req.authorization, URL.parse resp.location with
  | some (.basic source _ _), some location =>
    isRedirect resp.status = true → resp.location ≠ [] →
      isDomainOrSubdomain (req.url.resolveReference location).hostname req.initial.hostname = true →
      source.Owns (req.url.resolveReference location)
  | _, _ => True

/-- A page of tags that asks for basic authentication is one of the registry's own, if there
is an account for the registry. -/
def PageHeeds (r : Registries) (ref : Ref) (explicit : Option Config) (req : Request)
    (resp : Response) : Prop :=
  req.purpose = .page → resp.status = 401 → isBasic resp.challenge = true →
    account r ref explicit ≠ none → req.initial.scheme = "https".toList ∧
      equalFold req.initial.host (removeEmptyPort ref.registry) = true

/-- A realm that contains `docker.io` is one of Docker Hub's own, if the start-up credentials
would be sent to it. -/
def RealmHeeds (r : Registries) (ref : Ref) (explicit : Option Config) (resp : Response) : Prop :=
  resp.status = 401 → account r ref explicit = none → r.dockerHubUsername ≠ [] →
    match URL.parse (param (parseBearerChallenge resp.challenge) "realm") with
      | some u => contains u.host "docker.io".toList = true →
        Source.dockerHub.Owns (newRequest .token u [] none).url
      | none => True

/-- The answers that do not lead credentials astray. -/
def Heeds (r : Registries) (ref : Ref) (explicit : Option Config) : Event Wire Unit → Prop
  | ⟨_, _, .error _⟩ => True
  | ⟨_, req, .ok resp⟩ => RedirectHeeds req resp ∧ PageHeeds r ref explicit req resp ∧
    RealmHeeds r ref explicit resp

instance (req : Request) (resp : Response) : Decidable (RedirectHeeds req resp) := by
  unfold RedirectHeeds
  split <;> infer_instance

instance (r : Registries) (ref : Ref) (explicit : Option Config) (req : Request) (resp : Response) :
    Decidable (PageHeeds r ref explicit req resp) := by
  unfold PageHeeds
  infer_instance

instance (r : Registries) (ref : Ref) (explicit : Option Config) (resp : Response) :
    Decidable (RealmHeeds r ref explicit resp) := by
  unfold RealmHeeds
  split <;> infer_instance

instance (r : Registries) (ref : Ref) (explicit : Option Config) :
    (e : Event Wire Unit) → Decidable (Heeds r ref explicit e)
  | ⟨_, _, .error _⟩ => inferInstanceAs (Decidable True)
  | ⟨_, _, .ok _⟩ => inferInstanceAs (Decidable (_ ∧ _))

/-- The registry of a reference is spelled as its account spells it, up to letter case. -/
def Spelled (r : Registries) (ref : Ref) (explicit : Option Config) : Prop :=
  ∀ cfg, account r ref explicit = some cfg →
    URL.plainHost ref.registry = true ∧ equalFold ref.registry cfg.host = true

/-- Registries that answer whatever they like. -/
def anyRegistry : Machine Wire Unit := ⟨fun _ _ => True, fun _ _ _ _ => True⟩

def confinement (r : Registries) (ref : Ref) (explicit : Option Config) : Contract Wire Unit Unit where
  allowed _ req := Confined req
  expects _ e := Heeds r ref explicit e
  next _ _ := ()

variable {r : Registries} {ref : Ref} {explicit : Option Config} {k : Unit}

/-! ### Hosts -/

theorem foldRune_colon {c : Char} : foldRune c = ':' ↔ c = ':' := by
  constructor
  · intro h
    unfold foldRune at h
    split_ifs at h with hupper hkelvin hlong
    · have hletters : ∀ n < 26, Char.ofNat (65 + n + 32) ≠ ':' := by decide
      have hlow : 65 ≤ c.toNat := hupper.1
      have hhigh : c.toNat ≤ 90 := hupper.2
      refine absurd h ?_
      rw [show c.toNat + 32 = 65 + (c.toNat - 65) + 32 by omega]
      exact hletters _ (by omega)
    · cases h
    · cases h
    · exact h
  · rintro rfl
    rfl

/-- Dropping an empty port respects letter case. -/
theorem removeEmptyPort_fold (host : Text) :
    (removeEmptyPort host).map foldRune = removeEmptyPort (host.map foldRune) := by
  have hend : ∀ s : Text, (trimStart [':'] s).map foldRune = trimStart [':'] (s.map foldRune) := by
    intro s
    cases s with
    | nil => rfl
    | cons c rest =>
      by_cases hc : c = ':'
      · subst hc
        rfl
      · have hfold : ¬ ':' = foldRune c := fun h => hc (foldRune_colon.mp h.symm)
        simp [trimStart, afterPrefix, Ne.symm hc, hfold]
  simp only [removeEmptyPort, trimEnd, List.reverse_cons, List.reverse_nil, List.nil_append,
    List.map_reverse]
  rw [hend, List.map_reverse]

theorem equalFold_removeEmptyPort {a b : Text} (h : equalFold a b = true) :
    equalFold (removeEmptyPort a) (removeEmptyPort b) = true := by
  simp only [equalFold, decide_eq_true_eq] at h ⊢
  rw [removeEmptyPort_fold, removeEmptyPort_fold, h]

/-! ### Requests -/

theorem confined_of_bearer {req : Request} {token : Text}
    (h : req.authorization = some (.bearer token)) : Confined req := by
  simp [Confined, h]

theorem confined_of_none {req : Request} (h : req.authorization = none) : Confined req := by
  simp [Confined, h]

/-- An answer that came at the end of the redirects of a request. -/
def Answered (r : Registries) (ref : Ref) (explicit : Option Config) (req : Request)
    (result : Except GoError Response) : Prop :=
  ∀ resp, result = .ok resp → ∃ last : Request, last.purpose = req.purpose ∧
    last.initial = req.initial ∧ Heeds r ref explicit ⟨(), last, .ok resp⟩

theorem answered_error (req : Request) (err : GoError) :
    Answered r ref explicit req (.error err) := by
  intro resp h
  cases h

theorem redirect_confined {req next : Request} {resp : Response} (hheeds : RedirectHeeds req resp)
    (h : redirect req resp = .onward next) :
    Confined next ∧ next.purpose = req.purpose ∧ next.initial = req.initial := by
  unfold redirect at h
  split at h
  · cases h
  · next hredirects =>
    rw [not_or, Bool.not_eq_false] at hredirects
    split at h
    · cases h
    · next location hlocation =>
      cases h
      refine ⟨?_, rfl, rfl⟩
      unfold RedirectHeeds at hheeds
      rw [hlocation] at hheeds
      by_cases hkeep : isDomainOrSubdomain (req.url.resolveReference location).hostname
          req.initial.hostname = true
      · cases hauth : req.authorization with
        | none => exact confined_of_none (by simp)
        | some authorization =>
          cases authorization with
          | bearer token => exact confined_of_bearer (by simp [hkeep]; rfl)
          | basic source username password =>
            simp only [hauth] at hheeds
            simpa [Confined, hkeep, hauth] using hheeds hredirects.1 hredirects.2 hkeep
      · exact confined_of_none (by simp [hkeep])

theorem follow_obeys (redirects : Nat) {req : Request} (h : Confined req) :
    anyRegistry.obeys (confinement r ref explicit) (follow redirects req) k
      fun _ result => Answered r ref explicit req result := by
  induction redirects generalizing req k with
  | zero => exact answered_error req _
  | succ redirects ih =>
    unfold follow
    split
    · exact answered_error req _
    · split
      · exact answered_error req _
      · refine ⟨h, fun w reply w' _ hheeds => ?_⟩
        cases reply with
        | error err => exact answered_error req _
        | ok resp =>
          dsimp only [Program.bind]
          cases hto : redirect req resp with
          | none =>
            rintro resp' hresp
            cases hresp
            exact ⟨req, rfl, rfl, hheeds⟩
          | invalid => exact answered_error req _
          | onward next =>
            obtain ⟨hconfined, hpurpose, hinitial⟩ := redirect_confined hheeds.1 hto
            refine Machine.obeys_mono (ih hconfined) fun _ result hresult resp' hresp => ?_
            obtain ⟨last, hsame, hfirst, hlast⟩ := hresult resp' hresp
            exact ⟨last, hsame.trans hpurpose, hfirst.trans hinitial, hlast⟩

theorem clientDo_obeys {req : Request} (h : Confined req) :
    anyRegistry.obeys (confinement r ref explicit) (clientDo req) k
      fun _ result => Answered r ref explicit req result := follow_obeys 10 h

/-- The credentials of an account may be sent to its registry's API. -/
theorem apiURL_owned {cfg : Config} {path : Text} {u : URL} {purpose : Purpose} {accept : Text}
    (hplain : URL.plainHost ref.registry = true) (hspelled : equalFold ref.registry cfg.host = true)
    (h : URL.parse (apiURL ref.registry path) = some u) :
    Confined (newRequest purpose u accept (some cfg.header)) := by
  obtain ⟨hscheme, hhost⟩ := URL.parse_https hplain h
  refine ⟨hscheme, .inl ?_⟩
  change equalFold (removeEmptyPort u.host) _ = true
  rw [hhost]
  exact equalFold_removeEmptyPort hspelled

/-- An answer that was heeded, whatever it was sent for. -/
def Heard (r : Registries) (ref : Ref) (explicit : Option Config)
    (result : Except GoError Response) : Prop :=
  ∀ resp, result = .ok resp → ∃ last, Heeds r ref explicit ⟨(), last, .ok resp⟩

theorem Answered.heard {req : Request} {result : Except GoError Response}
    (h : Answered r ref explicit req result) : Heard r ref explicit result := by
  intro resp hresp
  obtain ⟨last, -, -, hlast⟩ := h resp hresp
  exact ⟨last, hlast⟩

theorem heard_error (err : GoError) : Heard r ref explicit (.error err) := by
  intro resp h
  cases h

/-- A GET request to the API of the registry, alone, with a token, or with the account of
the registry. -/
theorem get_obeys (purpose : Purpose) (path accept : Text) {authorization : Option Authorization}
    (h : ∀ u, URL.parse (apiURL ref.registry path) = some u →
      Confined (newRequest purpose u accept authorization)) :
    anyRegistry.obeys (confinement r ref explicit)
      (get purpose (apiURL ref.registry path) accept authorization) k
      fun _ result => Heard r ref explicit result := by
  unfold get
  split
  · exact heard_error _
  · next u hu => exact Machine.obeys_mono (clientDo_obeys (h u hu)) fun _ _ ha => ha.heard

theorem bearerHeader_confined {req : Request} {token : Text}
    (h : req.authorization = bearerHeader token) : Confined req := by
  unfold bearerHeader at h
  split at h
  · exact confined_of_bearer h
  · exact confined_of_none h

theorem doManifestRequest_obeys (url token : Text) :
    anyRegistry.obeys (confinement r ref explicit) (doManifestRequest url token) k
      fun _ result => Heard r ref explicit result := by
  unfold doManifestRequest
  split
  · exact heard_error _
  · refine Machine.obeys_bind.mpr (Machine.obeys_mono
      (clientDo_obeys (bearerHeader_confined rfl)) ?_)
    intro _ result hresult
    cases result with
    | error err => exact heard_error _
    | ok resp => exact hresult.heard

/-- What `ConfigForHost` finds is an account of the registry. -/
theorem credentials_eq : credentials r ref = account r ref none := by
  simp [credentials, account]

/-- The account of a registry may sign its requests. -/
theorem credentials_confined (hspelled : Spelled r ref none) {cfg : Config}
    (hcfg : credentials r ref = some cfg) {path accept : Text} {purpose : Purpose} {u : URL}
    (hu : URL.parse (apiURL ref.registry path) = some u) :
    Confined (newRequest purpose u accept (some cfg.header)) := by
  rw [credentials_eq] at hcfg
  obtain ⟨hplain, hsame⟩ := hspelled cfg hcfg
  exact apiURL_owned hplain hsame hu

/-- The credentials of a token request go to the registry, its `auth_host` or Docker Hub. -/
theorem realmAuthorization_confined (hspelled : Spelled r ref explicit) {last : Request}
    {resp : Response} (hheeds : Heeds r ref explicit ⟨(), last, .ok resp⟩) (h401 : resp.status = 401)
    {u : URL} (hu : URL.parse (param (parseBearerChallenge resp.challenge) "realm") = some u)
    {authorization : Option Authorization}
    (h : realmAuthorization r ref explicit u = .ok authorization) :
    Confined (newRequest .token u [] authorization) := by
  have hrealm : RealmHeeds r ref explicit resp := hheeds.2.2
  unfold RealmHeeds at hrealm
  rw [hu] at hrealm
  have hhub : account r ref explicit = none → ∀ auth,
      (if r.dockerHubUsername ≠ [] ∧ contains u.host "docker.io".toList then
        some (Authorization.basic .dockerHub r.dockerHubUsername r.dockerHubPassword) else none) = auth →
      Confined (newRequest .token u [] auth) := by
    rintro hnone _ rfl
    split
    · next hsent => exact hrealm h401 hnone hsent.1 hsent.2
    · trivial
  unfold realmAuthorization at h
  cases hcfg : explicit.or (configForHost r ref.registry) with
  | none =>
    simp only [hcfg, Except.ok.injEq] at h
    exact hhub (by simp [account, hcfg]) _ h
  | some cfg =>
    simp only [hcfg] at h
    by_cases hempty : cfg.username = []
    · simp only [hempty, if_true, Except.ok.injEq] at h
      exact hhub (by simp [account, hcfg, hempty]) _ h
    · have haccount : account r ref explicit = some cfg := by simp [account, hcfg, hempty]
      rw [if_neg hempty] at h
      split at h
      · cases h
      · next htrusted =>
        rw [not_not] at htrusted
        split at h
        · cases h
        · next hscheme =>
          simp only [Except.ok.injEq] at h
          subst h
          refine ⟨not_not.mp hscheme, ?_⟩
          rcases htrusted with hsame | ⟨hset, hsame⟩
          · exact .inl (equalFold_removeEmptyPort
              (equalFold_trans hsame (hspelled cfg haccount).2))
          · exact .inr ⟨hset, equalFold_removeEmptyPort hsame⟩

theorem authenticate_obeys (hspelled : Spelled r ref explicit) {last : Request} {resp : Response}
    (hheeds : Heeds r ref explicit ⟨(), last, .ok resp⟩) (h401 : resp.status = 401) :
    anyRegistry.obeys (confinement r ref explicit) (authenticate r resp.challenge ref explicit) k
      fun _ _ => True := by
  unfold authenticate
  dsimp only
  split
  · trivial
  · split
    · trivial
    · next u hu =>
      split
      · trivial
      · next authorization hauthorization =>
        have hconfined : Confined (newRequest .token u [] authorization) :=
          realmAuthorization_confined hspelled hheeds h401 hu hauthorization
        refine Machine.obeys_bind.mpr (Machine.obeys_mono (clientDo_obeys hconfined) ?_)
        intro _ result _
        cases result with
        | error err => trivial
        | ok answer =>
          change anyRegistry.obeys _ (ite _ _ _) _ _
          split
          · trivial
          · cases answer.body <;> trivial

/-! ### Entry points -/

/-- What a digest makes of the last answer sends nothing more. -/
theorem digestAnswer_obeys (answer : Except GoError Response) :
    anyRegistry.obeys (confinement r ref none) (match answer with
      | .error err => return .error err
      | .ok resp =>
        if resp.status ≠ 200 then
          return .error (errorf ("manifest request: unexpected status " ++ toString resp.status))
        else if resp.contentDigest ≠ [] then return .ok resp.contentDigest
        else return .error (errorf "registry response had no Docker-Content-Digest header")
      : Web (Except GoError Text)) k fun _ _ => True := by
  cases answer with
  | error err => trivial
  | ok resp =>
    dsimp only
    repeat' split
    all_goals trivial

theorem digest_obeys (hspelled : Spelled r ref none) :
    anyRegistry.obeys (confinement r ref none) (digest r ref) k fun _ _ => True := by
  have hfinish : ∀ (k' : Unit) (p : Web (Except GoError Response))
      (f : Except GoError Response → Web (Except GoError Text)),
      (∀ answer, anyRegistry.obeys (confinement r ref none) (f answer) k' fun _ _ => True) →
      anyRegistry.obeys (confinement r ref none) p k' (fun _ result => Heard r ref none result) →
      anyRegistry.obeys (confinement r ref none) (p >>= f) k' fun _ _ => True :=
    fun k' p f hf hp => Machine.obeys_bind.mpr (Machine.obeys_mono hp fun _ answer _ => hf answer)
  unfold digest
  dsimp only
  refine Machine.obeys_bind.mpr (Machine.obeys_mono (doManifestRequest_obeys _ _) ?_)
  intro _ result hresult
  cases result with
  | error err => trivial
  | ok resp =>
    obtain ⟨last, hheeds⟩ := hresult resp rfl
    dsimp only
    split
    · next h401 =>
      split
      · split
        · trivial
        · next cfg hcfg =>
          exact hfinish _ _ _ digestAnswer_obeys (get_obeys _ _ _ fun u hu => credentials_confined hspelled hcfg hu)
      · refine Machine.obeys_bind.mpr (Machine.obeys_mono (authenticate_obeys hspelled hheeds h401) ?_)
        intro _ answer _
        cases answer with
        | error err => trivial
        | ok token => exact hfinish _ _ _ digestAnswer_obeys (doManifestRequest_obeys _ _)
    · exact digestAnswer_obeys (.ok resp)

/-- A repeated request is confined if its anonymous form is answered, and if the form with the
account of the registry is confined whenever the answer asks for it. -/
theorem authenticatedGET_obeys (hspelled : Spelled r ref none)
    {send : Option Authorization → Web (Except GoError Response)} {bearer : Text → Option Authorization}
    {Q : Except GoError Response → Prop} (hfailed : ∀ err, Q (.error err))
    (hanon : anyRegistry.obeys (confinement r ref none) (send none) k fun _ result =>
      Heard r ref none result ∧ Q result ∧ ∀ resp, result = .ok resp → resp.status = 401 →
        isBasic resp.challenge = true → ∀ cfg, credentials r ref = some cfg → ∀ k',
          anyRegistry.obeys (confinement r ref none) (send (some cfg.header)) k' fun _ result => Q result)
    (hbearer : ∀ token k', anyRegistry.obeys (confinement r ref none) (send (bearer token)) k'
      fun _ result => Q result) :
    anyRegistry.obeys (confinement r ref none) (authenticatedGET r send ref bearer) k
      fun _ result => Q result := by
  unfold authenticatedGET
  refine Machine.obeys_bind.mpr (Machine.obeys_mono hanon ?_)
  rintro _ result ⟨hheard, hQ, hbasic⟩
  cases result with
  | error err => exact hfailed err
  | ok resp =>
    obtain ⟨last, hheeds⟩ := hheard resp rfl
    dsimp only
    split
    · exact hQ
    · next h401 =>
      rw [ne_eq, not_not] at h401
      split
      · next hchallenge =>
        split
        · exact hfailed _
        · next cfg hcfg => exact hbasic resp rfl h401 hchallenge cfg hcfg _
      · refine Machine.obeys_bind.mpr (Machine.obeys_mono (authenticate_obeys hspelled hheeds h401) ?_)
        intro _ answer _
        cases answer with
        | error err => exact hfailed _
        | ok token => exact hbearer token _

theorem authenticatedRegistryGET_obeys (hspelled : Spelled r ref none) (path accept : Text) :
    anyRegistry.obeys (confinement r ref none)
      (authenticatedRegistryGET r (apiURL ref.registry path) ref accept) k fun _ _ => True := by
  refine authenticatedGET_obeys (Q := fun _ => True) hspelled (fun _ => trivial) ?_ ?_
  · refine Machine.obeys_mono (get_obeys _ _ _ fun u _ => confined_of_none rfl) ?_
    intro _ result hheard
    refine ⟨hheard, trivial, fun resp _ _ _ cfg hcfg k' => ?_⟩
    exact Machine.obeys_mono (get_obeys _ _ _ fun u hu => credentials_confined hspelled hcfg hu)
      fun _ _ _ => trivial
  · intro token k'
    exact Machine.obeys_mono (get_obeys _ _ _ fun u _ => confined_of_bearer rfl) fun _ _ _ => trivial

theorem blobVersion_obeys (hspelled : Spelled r ref none) (configDigest : Text) :
    anyRegistry.obeys (confinement r ref none) (blobVersion r ref configDigest) k fun _ _ => True := by
  unfold blobVersion
  refine Machine.obeys_bind.mpr (Machine.obeys_mono (authenticatedRegistryGET_obeys hspelled _ _) ?_)
  intro _ result _
  cases result with
  | error err => trivial
  | ok resp =>
    dsimp only
    split
    · trivial
    · cases resp.body <;> trivial

theorem versionLabelForManifest_obeys (hspelled : Spelled r ref none) (platform : Text × Text)
    (levels : Nat) (reference : Text) : anyRegistry.obeys (confinement r ref none)
      (versionLabelForManifest r platform ref levels reference) k fun _ _ => True := by
  induction levels generalizing reference k with
  | zero => trivial
  | succ levels ih =>
    unfold versionLabelForManifest
    refine Machine.obeys_bind.mpr (Machine.obeys_mono (authenticatedRegistryGET_obeys hspelled _ _) ?_)
    intro _ result _
    cases result with
    | error err => trivial
    | ok resp =>
      dsimp only
      split
      · trivial
      · split
        · trivial
        · repeat' split
          · trivial
          · trivial
          · exact ih _
          · exact blobVersion_obeys hspelled _

/-- A page of tags is asked for with the account only if it is the registry's own. -/
theorem tagsRequest_obeys (hspelled : Spelled r ref none) (url : URL) :
    anyRegistry.obeys (confinement r ref none) (tagsRequest r url ref) k fun _ _ => True := by
  refine authenticatedGET_obeys (Q := fun _ => True) hspelled (fun _ => trivial) ?_ ?_
  · refine Machine.obeys_mono (clientDo_obeys (confined_of_none rfl)) ?_
    intro _ result hanswered
    refine ⟨hanswered.heard, trivial, fun resp hresp h401 hchallenge cfg hcfg k' => ?_⟩
    obtain ⟨last, hpurpose, hinitial, hheeds⟩ := hanswered resp hresp
    rw [credentials_eq] at hcfg
    obtain ⟨hscheme, hhost⟩ := hheeds.2.1 hpurpose h401 hchallenge (by simp [hcfg])
    rw [hinitial] at hscheme hhost
    refine Machine.obeys_mono (clientDo_obeys ?_) fun _ _ _ => trivial
    exact ⟨hscheme, .inl (equalFold_trans hhost (equalFold_removeEmptyPort (hspelled cfg hcfg).2))⟩
  · intro token k'
    exact Machine.obeys_mono (clientDo_obeys (bearerHeader_confined rfl)) fun _ _ _ => trivial

theorem listTagPages_obeys (hspelled : Spelled r ref none) (pages : Nat) (next : URL)
    (out : List Text) : anyRegistry.obeys (confinement r ref none)
      (listTagPages r ref pages next out) k fun _ _ => True := by
  induction pages generalizing next out k with
  | zero => trivial
  | succ pages ih =>
    unfold listTagPages
    refine Machine.obeys_bind.mpr (Machine.obeys_mono (tagsRequest_obeys hspelled next) ?_)
    intro _ result _
    cases result with
    | error err => trivial
    | ok resp =>
      dsimp only
      split
      · trivial
      · split
        · trivial
        · split
          · trivial
          · exact ih _ _

theorem listTags_obeys (hspelled : Spelled r ref none) :
    anyRegistry.obeys (confinement r ref none) (listTags r ref) k fun _ _ => True := by
  unfold listTags
  dsimp only
  split
  · trivial
  · exact listTagPages_obeys hspelled _ _ _

/-- Docker Hub's tags are listed without credentials. -/
theorem listHubPages_obeys (bounded : Bool) (pages : Nat) (next : Text) (s : HubScan) :
    anyRegistry.obeys (confinement r ref explicit) (listHubPages bounded pages next s) k
      fun _ _ => True := by
  induction pages generalizing next s k with
  | zero => trivial
  | succ pages ih =>
    unfold listHubPages
    split
    · trivial
    · have hget : anyRegistry.obeys (confinement r ref explicit) (get .page next [] none) k
          fun _ _ => True := by
        unfold get
        split
        · trivial
        · exact Machine.obeys_mono (clientDo_obeys (confined_of_none rfl)) fun _ _ _ => trivial
      refine Machine.obeys_bind.mpr (Machine.obeys_mono hget ?_)
      intro _ result _
      cases result with
      | error err => trivial
      | ok resp =>
        dsimp only
        split
        · trivial
        · split
          · trivial
          · split
            · trivial
            · exact ih _ _

/-- What a session has learned is the account of its registry, if it is an account. -/
def SessionAuth.Own (r : Registries) (ref : Ref) : SessionAuth → Prop
  | .basic cfg => credentials r ref = some cfg
  | .anonymous | .bearer _ => True

theorem sessionRequest_obeys (hspelled : Spelled r ref none) (tag : Text) (auth : SessionAuth)
    (h : auth.Own r ref) : anyRegistry.obeys (confinement r ref none)
      (sessionRequest (manifestURL ref tag) auth) k fun _ result => Heard r ref none result := by
  cases auth with
  | anonymous => exact doManifestRequest_obeys _ _
  | bearer token => exact doManifestRequest_obeys _ _
  | basic cfg => exact get_obeys _ _ _ fun u hu => credentials_confined hspelled h hu

theorem sessionDigest_fst (auth : SessionAuth) (answer : Except GoError Response) :
    (sessionDigest auth answer).1 = auth := by
  cases answer with
  | error err => rfl
  | ok resp =>
    unfold sessionDigest
    dsimp only
    repeat' split
    all_goals rfl

theorem manifestSessionDigest_obeys (hspelled : Spelled r ref none) (tag : Text) {auth : SessionAuth}
    (h : auth.Own r ref) : anyRegistry.obeys (confinement r ref none)
      (manifestSessionDigest r ref auth tag) k fun _ out => out.1.Own r ref := by
  unfold manifestSessionDigest
  refine Machine.obeys_bind.mpr (Machine.obeys_mono (sessionRequest_obeys hspelled tag auth h) ?_)
  intro _ result hresult
  cases result with
  | error err => exact h
  | ok resp =>
    obtain ⟨last, hheeds⟩ := hresult resp rfl
    cases auth with
    | basic cfg =>
      change (sessionDigest _ _).1.Own r ref
      rwa [sessionDigest_fst]
    | bearer token =>
      change (sessionDigest _ _).1.Own r ref
      rwa [sessionDigest_fst]
    | anonymous =>
      dsimp only
      split
      · change (sessionDigest _ _).1.Own r ref
        rwa [sessionDigest_fst]
      · next h401 =>
        rw [ne_eq, not_not] at h401
        split
        · split
          · exact h
          · next cfg hcfg =>
            refine Machine.obeys_bind.mpr (Machine.obeys_mono
              (sessionRequest_obeys hspelled tag (.basic cfg) hcfg) ?_)
            intro _ answer _
            change (sessionDigest _ _).1.Own r ref
            rwa [sessionDigest_fst]
        · refine Machine.obeys_bind.mpr (Machine.obeys_mono
            (authenticate_obeys hspelled hheeds h401) ?_)
          intro _ answer _
          cases answer with
          | error err => exact h
          | ok token =>
            refine Machine.obeys_bind.mpr (Machine.obeys_mono
              (sessionRequest_obeys hspelled tag (.bearer token) trivial) ?_)
            intro _ answer _
            change (sessionDigest _ _).1.Own r ref
            rw [sessionDigest_fst]
            trivial

theorem resolveCandidates_obeys (hspelled : Spelled r ref none) (candidates : List Text)
    (auth : SessionAuth) (h : auth.Own r ref) (s : Resolution) :
    anyRegistry.obeys (confinement r ref none) (resolveCandidates r ref candidates auth s) k
      fun _ _ => True := by
  induction candidates generalizing auth s k with
  | nil => trivial
  | cons tag rest ih =>
    unfold resolveCandidates
    refine Machine.obeys_bind.mpr (Machine.obeys_mono (manifestSessionDigest_obeys hspelled tag h) ?_)
    rintro _ ⟨auth', result⟩ hown
    cases result with
    | error err => exact ih _ hown _
    | ok digest =>
      dsimp only
      split
      · split
        · trivial
        · exact ih _ hown _
      · exact ih _ hown _

theorem resolveVersionTags_obeys (hspelled : Spelled r ref none) (wanted : List (Text × Bool)) :
    anyRegistry.obeys (confinement r ref none) (resolveVersionTags r ref wanted) k fun _ _ => True := by
  unfold resolveVersionTags
  split
  · exact listHubPages_obeys _ _ _ _
  · refine Machine.obeys_bind.mpr (Machine.obeys_mono (listTags_obeys hspelled) ?_)
    intro _ result _
    cases result with
    | error err => trivial
    | ok tags =>
      refine Machine.obeys_bind.mpr (Machine.obeys_mono
        (resolveCandidates_obeys hspelled _ .anonymous trivial _) ?_)
      intro _ s _
      split <;> trivial

attribute [local irreducible] get

theorem testConnection_obeys (cfg : Config)
    (hspelled : Spelled r { registry := canonicalHost cfg.host }
      (some { cfg with host := canonicalHost cfg.host })) :
    anyRegistry.obeys (confinement r { registry := canonicalHost cfg.host }
      (some { cfg with host := canonicalHost cfg.host })) (testConnection r cfg) k fun _ _ => True := by
  unfold testConnection
  dsimp only
  split
  · trivial
  · refine Machine.obeys_bind.mpr (Machine.obeys_mono
      (get_obeys _ _ _ fun u _ => confined_of_none rfl) ?_)
    intro _ result hresult
    cases result with
    | error err => trivial
    | ok resp =>
      obtain ⟨last, hheeds⟩ := hresult resp rfl
      dsimp only
      split
      · trivial
      · next h401 =>
        rw [ne_eq, not_not] at h401
        split
        · split
          · trivial
          · next husername =>
            have haccount : account r { registry := canonicalHost cfg.host }
                (some { cfg with host := canonicalHost cfg.host }) =
                some { cfg with host := canonicalHost cfg.host } := by simp [account, husername]
            obtain ⟨hplain, hsame⟩ := hspelled _ haccount
            refine Machine.obeys_bind.mpr (Machine.obeys_mono
              (get_obeys _ _ _ fun u hu => apiURL_owned hplain hsame hu) ?_)
            intros
            trivial
        · refine Machine.obeys_bind.mpr (Machine.obeys_mono
            (authenticate_obeys hspelled hheeds h401) ?_)
          intro _ answer _
          cases answer with
          | error err => trivial
          | ok token =>
            refine Machine.obeys_bind.mpr (Machine.obeys_mono
              (get_obeys _ _ _ fun u _ => confined_of_bearer rfl) ?_)
            intros
            trivial

/-- What the rest of the daemon asks of the package. -/
inductive RegistryCall where
  | digest (ref : Ref)
  | versionLabelForDigest (platform : Text × Text) (ref : Ref) (digest : Text)
  | listTags (ref : Ref)
  | listDockerHubTags (repo : Text) (wanted : List (Text × Bool))
  | resolveVersionTags (ref : Ref) (wanted : List (Text × Bool))
  | testConnection (cfg : Config)

namespace RegistryCall

def run (r : Registries) : RegistryCall → Web Unit
  | .digest ref => (fun _ => ()) <$> Registry.digest r ref
  | .versionLabelForDigest platform ref sha =>
    (fun _ => ()) <$> Registry.versionLabelForDigest r platform ref sha
  | .listTags ref => (fun _ => ()) <$> Registry.listTags r ref
  | .listDockerHubTags repo wanted => (fun _ => ()) <$> Registry.listDockerHubTags repo wanted
  | .resolveVersionTags ref wanted => (fun _ => ()) <$> Registry.resolveVersionTags r ref wanted
  | .testConnection cfg => (fun _ => ()) <$> Registry.testConnection r cfg

/-- The registry a call is about. -/
def target : RegistryCall → Ref
  | .digest ref | .versionLabelForDigest _ ref _ | .listTags ref | .resolveVersionTags ref _ => ref
  | .listDockerHubTags _ _ => { registry := "registry-1.docker.io".toList }
  | .testConnection cfg => { registry := canonicalHost cfg.host }

/-- The configuration under test, which need not be stored. -/
def tested : RegistryCall → Option Config
  | .testConnection cfg => some { cfg with host := canonicalHost cfg.host }
  | _ => none

theorem run_obeys (call : RegistryCall) (hspelled : Spelled r call.target call.tested) :
    anyRegistry.obeys (confinement r call.target call.tested) (call.run r) k fun _ _ => True := by
  have hmap : ∀ {α : Type} {ref : Ref} {explicit : Option Config} {p : Web α},
      anyRegistry.obeys (confinement r ref explicit) p k (fun _ _ => True) →
      anyRegistry.obeys (confinement r ref explicit) ((fun _ => ()) <$> p) k fun _ _ => True := by
    intro α ref explicit p hp
    rw [map_eq_pure_bind]
    exact Machine.obeys_bind.mpr (Machine.obeys_mono hp fun _ _ _ => trivial)
  cases call with
  | digest ref => exact hmap (digest_obeys hspelled)
  | versionLabelForDigest platform ref sha =>
    exact hmap (versionLabelForManifest_obeys hspelled platform 2 sha)
  | listTags ref => exact hmap (listTags_obeys hspelled)
  | listDockerHubTags repo wanted => exact hmap (listHubPages_obeys _ _ _ _)
  | resolveVersionTags ref wanted => exact hmap (resolveVersionTags_obeys hspelled wanted)
  | testConnection cfg => exact hmap (testConnection_obeys cfg hspelled)

end RegistryCall

/-- What a call sends when the registries answer as scripted. -/
def exchange (r : Registries) (call : RegistryCall) (answers : List Response) : Trace Wire Unit :=
  memberTrace () (Machine.replay (S := Wire) (W := Unit)
    (fun _ answer _ => (Except.ok answer, ())) (answers.map fun answer => ((), answer))
    (fun _ : Unit => call.run r) ()).1

theorem exchange_admits (r : Registries) (call : RegistryCall) (answers : List Response) :
    anyRegistry.Admits (call.run r) (exchange r call answers) :=
  (Machine.replay_runs (M := anyRegistry) (fun _ => trivial) (fun _ _ _ => trivial) _
    (fun _ : Unit => call.run r) ()).admits ()

/-- A registry with an account, and start-up credentials of Docker Hub. -/
def exampleRegistries : Registries where
  byHost :=
    [{ host := "registry.example.com".toList
       username := "ci".toList
       password := "s3cret".toList }]
  dockerHubUsername := "hubuser".toList
  dockerHubPassword := "hubpass".toList

def exampleRef : Ref where
  registry := "registry.example.com".toList
  repository := "team/app".toList
  tag := "1.0".toList

theorem exampleRef_spelled : Spelled exampleRegistries exampleRef none := by
  intro cfg hcfg
  have haccount : account exampleRegistries exampleRef none = exampleRegistries.byHost.head? := by
    decide
  rw [haccount] at hcfg
  cases hcfg
  exact ⟨by decide, by decide⟩

/-- The answers of a registry that asks for basic authentication. -/
def basicAnswers : List Response :=
  [{ status := 401, challenge := "Basic realm=\"r\"".toList },
    { status := 200, contentDigest := "sha256:1".toList }]

end Doupro.Registry
