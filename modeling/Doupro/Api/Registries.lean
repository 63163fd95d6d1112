import Doupro.Api.Schedules
import Doupro.Registry.Client
import Doupro.Table.Keyed

/-!
# Registry settings

`PATCH settings/registries` checks the entries, stores them, reads them back and puts them in the
place of the runtime map, in this order. The checks tell hosts apart by their lower case, the
runtime map by `canonicalHost`.
-/

namespace Doupro.Registry

open Text

/-- `registry.Config`, with the transport settings. -/
structure RuntimeConfig extends Config where
  proxyURL : Text := []
  caCertPEM : Text := []
  deriving DecidableEq

/-- What building a transport asks the standard library. -/
structure TransportPrimitives where
  /-- `url.Parse`. -/
  parseURL : Text → Option URL
  /-- `CertPool.AppendCertsFromPEM`. -/
  appendCerts : Text → Bool

/-- `transportFor`, without the transport. -/
def transportFor (lib : TransportPrimitives) (cfg : RuntimeConfig) : Except GoError Unit :=
  let proxy : Except GoError Unit :=
    if cfg.proxyURL = [] then .ok ()
    else match lib.parseURL cfg.proxyURL with
      | none => .error (.new "proxy URL is invalid")
      | some proxy =>
        if proxy.scheme ≠ "http".toList ∧ proxy.scheme ≠ "https".toList then
          .error (.new "proxy URL must use http or https")
        else .ok ()
  match proxy with
  | .error err => .error err
  | .ok () =>
    if cfg.caCertPEM ≠ [] ∧ lib.appendCerts cfg.caCertPEM = false then
      .error (.new "custom CA contains no valid PEM certificate")
    else .ok ()

/-- An entry under the host the map knows it by. -/
def RuntimeConfig.canonical (cfg : RuntimeConfig) : RuntimeConfig :=
  { cfg with host := canonicalHost cfg.host }

/-- `next[host] = cfg`. -/
def putConfig (next : List RuntimeConfig) (cfg : RuntimeConfig) : List RuntimeConfig :=
  Table.upsert (fun cfg => cfg.host) cfg (fun _ => cfg) next

/-- The loop of `Configure`. -/
def configureInto (lib : TransportPrimitives) :
    List RuntimeConfig → List RuntimeConfig → Except GoError (List RuntimeConfig)
  | next, [] => .ok next
  | next, cfg :: rest =>
    if canonicalHost cfg.host = [] then .error (.new "registry host is required")
    else match transportFor lib cfg.canonical with
      | .error err =>
        .error (.wrap ("configure registry " ++ String.ofList (canonicalHost cfg.host)) err)
      | .ok () => configureInto lib (putConfig next cfg.canonical) rest

/-- `Configure`, up to the lock: the map that takes the place of the old one. -/
def configure (lib : TransportPrimitives) (configs : List RuntimeConfig) :
    Except GoError (List RuntimeConfig) :=
  configureInto lib [] configs

/-- `ConfigForHost` on the whole configuration. -/
def runtimeForHost (byHost : List RuntimeConfig) (host : Text) : Option RuntimeConfig :=
  Table.lookup (fun cfg => cfg.host) (canonicalHost host) byHost

/-- The client reads the same map. -/
theorem configForHost_runtime (byHost : List RuntimeConfig) (host : Text) :
    configForHost { byHost := byHost.map RuntimeConfig.toConfig } host =
      (runtimeForHost byHost host).map RuntimeConfig.toConfig := by
  simp only [configForHost, runtimeForHost, Table.lookup, List.find?_map]
  rfl

/-! ### The map of a list -/

section Configure

variable {lib : TransportPrimitives} {next configs : List RuntimeConfig} {cfg : RuntimeConfig}

/-- An entry that `Configure` accepts. -/
def Configurable (lib : TransportPrimitives) (cfg : RuntimeConfig) : Prop :=
  canonicalHost cfg.host ≠ [] ∧ transportFor lib cfg.canonical = .ok ()

instance : Decidable (Configurable lib cfg) := inferInstanceAs (Decidable (_ ∧ _))

theorem lookup_putConfig (host : Text) :
    Table.lookup (fun cfg => cfg.host) host (putConfig next cfg) =
      if host = cfg.host then some cfg else Table.lookup (fun cfg => cfg.host) host next := by
  rw [putConfig, Table.lookup_upsert_of _ (fun _ _ => rfl)]
  cases Table.lookup (fun cfg : RuntimeConfig => cfg.host) host next <;> rfl

/-- Every entry is accepted, and each host gets the last entry that comes to it. -/
theorem configureInto_ok {made : List RuntimeConfig} : configureInto lib next configs = .ok made ↔
    (∀ cfg ∈ configs, Configurable lib cfg) ∧
      made = configs.foldl (fun next cfg => putConfig next cfg.canonical) next := by
  induction configs generalizing next with
  | nil =>
    rw [configureInto, Except.ok.injEq, List.foldl_nil]
    exact ⟨fun h => ⟨by simp, h.symm⟩, fun h => h.2.symm⟩
  | cons cfg rest ih =>
    rw [configureInto, List.forall_mem_cons, List.foldl_cons]
    by_cases hhost : canonicalHost cfg.host = []
    · rw [if_pos hhost]
      constructor
      · intro h
        cases h
      · exact fun h => absurd hhost h.1.1.1
    · rw [if_neg hhost]
      cases htransport : transportFor lib cfg.canonical with
      | error err =>
        constructor
        · intro h
          cases h
        · intro h
          cases htransport.symm.trans h.1.1.2
      | ok _ =>
        refine ih.trans ?_
        rw [and_assoc]
        exact ⟨fun h => ⟨⟨hhost, htransport⟩, h⟩, fun h => h.2⟩

/-- What the map holds for a host that entries come to. -/
theorem lookup_foldl_putConfig (host : Text) :
    Table.lookup (fun cfg => cfg.host) host
        (configs.foldl (fun next cfg => putConfig next cfg.canonical) next) =
      ((Table.lookup (fun cfg => canonicalHost cfg.host) host configs.reverse).map
          RuntimeConfig.canonical).or (Table.lookup (fun cfg => cfg.host) host next) := by
  induction configs generalizing next with
  | nil => rfl
  | cons cfg rest ih =>
    have hcanonical : cfg.canonical.host = canonicalHost cfg.host := rfl
    rw [List.foldl_cons, ih, lookup_putConfig, hcanonical, List.reverse_cons, Table.lookup_append_fresh]
    cases Table.lookup (fun cfg : RuntimeConfig => canonicalHost cfg.host) host rest.reverse with
    | some later => rfl
    | none =>
      by_cases hhost : host = canonicalHost cfg.host
      · simp [hhost]
      · simp [hhost, Ne.symm hhost]

/-- Entries with hosts of their own are all found. -/
theorem runtimeForHost_of_nodup (hapart : (configs.map fun cfg => canonicalHost cfg.host).Nodup)
    (hcfg : cfg ∈ configs) :
    runtimeForHost (configs.foldl (fun next cfg => putConfig next cfg.canonical) []) cfg.host =
      some cfg.canonical := by
  have hreverse : (configs.reverse.map fun cfg => canonicalHost cfg.host).Nodup := by
    rw [List.map_reverse]
    exact List.nodup_reverse.mpr hapart
  have hfound : Table.lookup (fun cfg => canonicalHost cfg.host) (canonicalHost cfg.host) configs.reverse =
      some cfg := Table.lookup_of_mem hreverse (List.mem_reverse.mpr hcfg)
  rw [runtimeForHost, lookup_foldl_putConfig, hfound]
  rfl

end Configure
end Doupro.Registry

namespace Doupro.Api

open Interaction Registry Text

/-- `store.RegistryConfig`. -/
structure RegistryConfig where
  host : Text := []
  username : Text := []
  password : Text := []
  authHost : Text := []
  proxyURL : Text := []
  caCertPEM : Text := []
  deriving DecidableEq

/-- An entry as it is handed to `Configure`. -/
def RegistryConfig.runtime (cfg : RegistryConfig) : RuntimeConfig where
  host := cfg.host
  username := cfg.username
  password := cfg.password
  authHost := cfg.authHost
  proxyURL := cfg.proxyURL
  caCertPEM := cfg.caCertPEM

/-- The calls of the handler. The setting is decrypted and decoded, or encoded and encrypted. -/
inductive RegistrySetting where
  | getRegistryConfigs
  | setSecretSetting (configs : List RegistryConfig)
  /-- The assignment to `configured.byHost`. -/
  | activate (next : List RuntimeConfig)

@[reducible] def RegistrySetting.Reply : RegistrySetting → Type
  | .getRegistryConfigs => Except GoError (List RegistryConfig)
  | .setSecretSetting _ => Except GoError Unit
  | .activate _ => Unit

abbrev RegistrySettings : Signature := ⟨RegistrySetting, RegistrySetting.Reply⟩

abbrev RegistryGo (α : Type) := Program RegistrySettings α

/-- The entry of a map over stored entries; a later one replaces an earlier one, and a missing one
is empty. -/
def storedByHost (existing : List RegistryConfig) (host : Text) : RegistryConfig :=
  (Table.lookup (fun cfg => lower cfg.host) host existing.reverse).getD {}

/-- The host an entry is checked and stored under. -/
def RegistryConfig.name (cfg : RegistryConfig) : Text := lower (trimSpace cfg.host)

/-- One round of the loop that checks the entries. -/
def checkEntry (lib : TransportPrimitives) (existing : List RegistryConfig) (seen : List Text)
    (cfg : RegistryConfig) : Except Answer Unit :=
  let authHost := lower (trimSpace cfg.authHost)
  if cfg.name = [] ∨ contains cfg.name "://".toList ∨ cfg.name ∈ seen then
    .error (invalidRequest "registry hosts must be unique host[:port] values without a scheme")
  else if contains authHost "://".toList ∨ authHost.any fun c => c ∈ "/?#".toList then
    .error (invalidRequest "token auth host must be a host[:port] value without a scheme or path")
  else if cfg.username = [] ∧ cfg.password ≠ [] then
    .error (invalidRequest "a username is required with a password/token")
  else if cfg.username ≠ [] ∧ cfg.password = [] ∧ (storedByHost existing cfg.name).password = [] then
    .error (invalidRequest "a password/token is required for a new credential")
  else match transportFor lib
      { host := cfg.name, proxyURL := cfg.proxyURL, caCertPEM := cfg.caCertPEM } with
    | .error err => .error (invalidRequest err.message)
    | .ok () => .ok ()

def checkEntries (lib : TransportPrimitives) (existing : List RegistryConfig) :
    List Text → List RegistryConfig → Except Answer Unit
  | _, [] => .ok ()
  | seen, cfg :: rest => match checkEntry lib existing seen cfg with
    | .error answer => .error answer
    | .ok () => checkEntries lib existing (cfg.name :: seen) rest

/-- One round of the loop of `SetRegistryConfigs`. -/
def mergeEntry (existing : List RegistryConfig) (cfg : RegistryConfig) : RegistryConfig :=
  let old := storedByHost existing cfg.name
  { cfg with
    host := cfg.name
    password :=
      if cfg.username = [] then [] else if cfg.password = [] then old.password else cfg.password
    proxyURL := if cfg.proxyURL = [] then old.proxyURL else cfg.proxyURL
    caCertPEM := if cfg.caCertPEM = [] then old.caCertPEM else cfg.caCertPEM }

/-- `Store.SetRegistryConfigs`. -/
def setRegistryConfigs (configs : List RegistryConfig) : RegistryGo (Except GoError Unit) := do
  match ← .request (S := RegistrySettings) .getRegistryConfigs with
  | .error err => return .error err
  | .ok existing => .request (S := RegistrySettings) (.setSecretSetting (configs.map (mergeEntry existing)))

/-- The end of the handler, once the list is stored. -/
def applyRegistries (lib : TransportPrimitives) : RegistryGo (Except Answer (List RegistryConfig)) := do
  match ← .request (S := RegistrySettings) .getRegistryConfigs with
  | .error _ => return .error (internalError "failed to reload registries")
  | .ok stored => match configure lib (stored.map RegistryConfig.runtime) with
    | .error err => return .error (invalidRequest err.message)
    | .ok next =>
      let _ ← .request (S := RegistrySettings) (.activate next)
      return .ok stored

/-- `handleSetRegistries`, given how decoding the body goes. A success answers with the public side
of the entries. -/
def handleSetRegistries (lib : TransportPrimitives) (body : Option (List RegistryConfig)) :
    RegistryGo (Except Answer (List RegistryConfig)) := do
  match body with
  | none => return .error (invalidRequest "invalid JSON body")
  | some configs =>
    let read ← .request (S := RegistrySettings) .getRegistryConfigs
    match checkEntries lib (read.toOption.getD []) [] configs with
    | .error answer => return .error answer
    | .ok () => match ← setRegistryConfigs configs with
      | .error _ => return .error (internalError "failed to save registries")
      | .ok () => applyRegistries lib

/-! ### The setting and the map -/

/-- The stored list and the runtime map. -/
structure RegistryState where
  stored : List RegistryConfig := []
  runtime : List RuntimeConfig := []
  deriving DecidableEq

/-- A read or a write of the setting may fail, and then does nothing. -/
inductive RegistryStep : RegistryState → (op : RegistrySetting) → op.Reply → RegistryState → Prop
  | unread (w : RegistryState) (err : GoError) : RegistryStep w .getRegistryConfigs (.error err) w
  | read (w : RegistryState) : RegistryStep w .getRegistryConfigs (.ok w.stored) w
  | unwritten (w : RegistryState) (configs : List RegistryConfig) (err : GoError) :
    RegistryStep w (.setSecretSetting configs) (.error err) w
  | written (w : RegistryState) (configs : List RegistryConfig) :
    RegistryStep w (.setSecretSetting configs) (.ok ()) { w with stored := configs }
  | activated (w : RegistryState) (next : List RuntimeConfig) :
    RegistryStep w (.activate next) () { w with runtime := next }

/-- One request at a time. -/
def registryServer : Machine RegistrySettings RegistryState where
  rely w w' := w' = w
  step := RegistryStep

theorem registryServer_request {op : RegistrySetting} {α : Type} {f : op.Reply → RegistryGo α}
    {w w' : RegistryState} {trace : Trace RegistrySettings RegistryState} {a : α} :
    registryServer.Runs (.request (S := RegistrySettings) op >>= f) w trace a w' ↔
      ∃ r w₁ rest, RegistryStep w op r w₁ ∧ trace = ⟨w, op, r⟩ :: rest ∧
        registryServer.Runs (f r) w₁ rest a w' := by
  rw [Machine.runs_request_bind]
  constructor
  · rintro ⟨w₀, r, w₁, rest, hworld, hstep, rfl, hrest⟩
    obtain rfl : w₀ = w := hworld
    exact ⟨r, w₁, rest, hstep, rfl, hrest⟩
  · rintro ⟨r, w₁, rest, hstep, rfl, hrest⟩
    exact ⟨w, r, w₁, rest, rfl, hstep, rfl, hrest⟩

/-- Each stored entry is the one the runtime map holds for its host. -/
structure Applied (w : RegistryState) : Prop where
  apart : (w.stored.map fun cfg => canonicalHost cfg.host).Nodup
  holds : ∀ cfg ∈ w.stored, runtimeForHost w.runtime cfg.host = some cfg.runtime.canonical

/-- A success applies the stored list, an error leaves everything as it was. -/
def RegistriesUpheld (w : RegistryState) (out : Except Answer (List RegistryConfig)) (w' : RegistryState) :
    Prop :=
  (∀ stored, out = .ok stored → stored = w'.stored ∧ Applied w') ∧ ∀ answer, out = .error answer → w' = w

/-- The list was stored. -/
def Written (trace : Trace RegistrySettings RegistryState) : Prop :=
  ∃ w configs, ⟨w, .setSecretSetting configs, .ok ()⟩ ∈ trace

/-- The request ends with a read that fails. After a write that is the one of `handleSetRegistries`
that reads the list back. -/
def Unread (trace : Trace RegistrySettings RegistryState) : Prop :=
  ∃ w err, trace.getLast? = some ⟨w, .getRegistryConfigs, .error err⟩

/-! ### One request -/

section Request

variable {lib : TransportPrimitives} {w w' : RegistryState} {trace : Trace RegistrySettings RegistryState}
  {out : Except Answer (List RegistryConfig)}

/-- The list as `SetRegistryConfigs` stores it. -/
def mergedList (existing configs : List RegistryConfig) : List RegistryConfig :=
  configs.map (mergeEntry existing)

/-- Every entry that is to be stored has a runtime host and a valid proxy and CA. -/
def Activatable (lib : TransportPrimitives) (existing configs : List RegistryConfig) : Prop :=
  ∀ cfg ∈ configs, Configurable lib (mergeEntry existing cfg).runtime

instance {existing configs : List RegistryConfig} : Decidable (Activatable lib existing configs) :=
  inferInstanceAs (Decidable (∀ cfg ∈ configs, _))

/-- No two entries have one runtime host. -/
def Apart (configs : List RegistryConfig) : Prop :=
  (configs.map fun cfg => canonicalHost cfg.name).Nodup

theorem apart_iff {existing configs : List RegistryConfig} :
    ((mergedList existing configs).map fun cfg => canonicalHost cfg.host).Nodup ↔ Apart configs := by
  rw [Apart, mergedList, List.map_map]
  rfl

theorem configure_merged {existing configs : List RegistryConfig} {next : List RuntimeConfig} :
    configure lib ((mergedList existing configs).map RegistryConfig.runtime) = .ok next ↔
      Activatable lib existing configs ∧
        next = ((mergedList existing configs).map RegistryConfig.runtime).foldl
          (fun next cfg => putConfig next cfg.canonical) [] := by
  rw [configure, configureInto_ok, mergedList, List.map_map, List.forall_mem_map]
  rfl

/-- Reading the list back and activating it: the three ways it can go. -/
theorem applyRegistries_cases (hrun : registryServer.Runs (applyRegistries lib) w trace out w') :
    (∃ err answer, trace = [⟨w, .getRegistryConfigs, .error err⟩] ∧ out = .error answer ∧ w' = w) ∨
    (∃ err answer, trace = [⟨w, .getRegistryConfigs, .ok w.stored⟩] ∧
      configure lib (w.stored.map RegistryConfig.runtime) = .error err ∧ out = .error answer ∧ w' = w) ∨
    ∃ next, trace = [⟨w, .getRegistryConfigs, .ok w.stored⟩, ⟨w, .activate next, ()⟩] ∧
      configure lib (w.stored.map RegistryConfig.runtime) = .ok next ∧ out = .ok w.stored ∧
        w' = { w with runtime := next } := by
  obtain ⟨r, w₁, rest, hstep, rfl, hrest⟩ := registryServer_request.mp hrun
  cases hstep with
  | unread err =>
    obtain ⟨rfl, rfl, rfl⟩ := hrest
    exact .inl ⟨err, _, rfl, rfl, rfl⟩
  | read =>
    cases hconfigure : configure lib (w.stored.map RegistryConfig.runtime) with
    | error err =>
      simp only [hconfigure] at hrest
      obtain ⟨rfl, rfl, rfl⟩ := hrest
      exact .inr (.inl ⟨err, _, rfl, rfl, rfl, rfl⟩)
    | ok next =>
      simp only [hconfigure] at hrest
      obtain ⟨_, w₂, last, hactivated, rfl, hlast⟩ := registryServer_request.mp hrest
      cases hactivated
      obtain ⟨rfl, rfl, rfl⟩ := hlast
      exact .inr (.inr ⟨next, rfl, rfl, rfl, rfl⟩)

/-- Storing fails and does nothing, or stores the merged list. -/
theorem setRegistryConfigs_cases {configs : List RegistryConfig} {saved : Except GoError Unit}
    (hrun : registryServer.Runs (setRegistryConfigs configs) w trace saved w') :
    (∃ err, saved = .error err ∧ w' = w ∧ ¬ Written trace) ∨
      (saved = .ok () ∧ w' = { w with stored := mergedList w.stored configs } ∧ Written trace) := by
  obtain ⟨r, w₁, rest, hstep, rfl, hrest⟩ := registryServer_request.mp hrun
  cases hstep with
  | unread err =>
    obtain ⟨rfl, rfl, rfl⟩ := hrest
    exact .inl ⟨err, rfl, rfl, by simp [Written]⟩
  | read =>
    have hsave : registryServer.Runs (.request (S := RegistrySettings)
      (.setSecretSetting (mergedList w.stored configs)) >>= pure) w rest saved w' := hrest
    obtain ⟨r, w₂, last, hstep, rfl, rfl, rfl, rfl⟩ := registryServer_request.mp hsave
    cases hstep with
    | unwritten _ err => exact .inl ⟨err, rfl, rfl, by simp [Written]⟩
    | written =>
      exact .inr ⟨rfl, rfl, w, mergedList w.stored configs, List.mem_cons_of_mem _ List.mem_cons_self⟩

theorem written_append {first last : Trace RegistrySettings RegistryState} :
    Written (first ++ last) ↔ Written first ∨ Written last := by
  simp only [Written, List.mem_append, exists_or]

/-- A request that is answered before the list is stored does nothing. Otherwise it has checked and
stored the list, and goes on from there. -/
theorem setRegistries_cases {body : Option (List RegistryConfig)}
    (hrun : registryServer.Runs (handleSetRegistries lib body) w trace out w') :
    (¬ Written trace ∧ w' = w ∧ ∃ answer, out = .error answer) ∨
    ∃ configs first last, body = some configs ∧ trace = first ++ last ∧ Written first ∧
      registryServer.Runs (applyRegistries lib) { w with stored := mergedList w.stored configs } last out w' := by
  unfold handleSetRegistries at hrun
  cases body with
  | none =>
    obtain ⟨rfl, rfl, rfl⟩ := hrun
    exact .inl ⟨by simp [Written], rfl, _, rfl⟩
  | some configs =>
    obtain ⟨read, w₁, rest, hread, rfl, hrest⟩ := registryServer_request.mp hrun
    obtain rfl : w₁ = w := by cases hread <;> rfl
    cases hchecked : checkEntries lib (read.toOption.getD []) [] configs with
    | error answer =>
      simp only [hchecked] at hrest
      obtain ⟨rfl, rfl, rfl⟩ := hrest
      exact .inl ⟨by simp [Written], rfl, _, rfl⟩
    | ok _ =>
      simp only [hchecked] at hrest
      obtain ⟨first, saved, w₂, last, hsave, hlast, rfl⟩ := Machine.runs_bind.mp hrest
      rcases setRegistryConfigs_cases hsave with ⟨err, rfl, rfl, hkept⟩ | ⟨rfl, rfl, hwritten⟩
      · obtain ⟨rfl, rfl, rfl⟩ := hlast
        refine .inl ⟨?_, rfl, _, rfl⟩
        rintro ⟨w, configs, hmem⟩
        simp only [List.append_nil, List.mem_cons, Event.mk.injEq, reduceCtorEq, false_and, and_false,
          false_or] at hmem
        exact hkept ⟨w, configs, hmem⟩
      · obtain ⟨w, configs', hmem⟩ := hwritten
        exact .inr ⟨configs, _ :: first, last, rfl, rfl, ⟨w, configs', List.mem_cons_of_mem _ hmem⟩, hlast⟩

theorem upheld_error {answer : Answer} : RegistriesUpheld w (.error answer) w' ↔ w' = w :=
  ⟨fun h => h.2 answer rfl, fun h => ⟨by simp, fun _ _ => h⟩⟩

theorem upheld_ok {stored : List RegistryConfig} {next : List RuntimeConfig} :
    RegistriesUpheld w (.ok stored) ⟨stored, next⟩ ↔ Applied ⟨stored, next⟩ :=
  ⟨fun h => (h.1 _ rfl).2, fun h => ⟨fun _ hstored => ⟨(Except.ok.inj hstored).symm, h⟩, by simp⟩⟩

/-- The map made of a list is right exactly if the entries have hosts of their own. -/
theorem applied_iff {configs : List RegistryConfig} {next : List RuntimeConfig}
    (hconfigure : configure lib ((mergedList w.stored configs).map RegistryConfig.runtime) = .ok next) :
    Applied { stored := mergedList w.stored configs, runtime := next } ↔ Apart configs := by
  obtain ⟨-, hnext⟩ := configure_merged.mp hconfigure
  refine ⟨fun h => apart_iff.mp h.apart, fun hapart => ⟨apart_iff.mpr hapart, ?_⟩⟩
  intro cfg hcfg
  have hhosts : (((mergedList w.stored configs).map RegistryConfig.runtime).map
      fun cfg => canonicalHost cfg.host).Nodup := by
    rw [List.map_map]
    exact apart_iff.mpr hapart
  have hfound := runtimeForHost_of_nodup hhosts (List.mem_map_of_mem hcfg)
  rw [← hnext] at hfound
  exact hfound

/-- What comes of a list that has been stored. -/
theorem applyRegistries_upheld_iff {configs : List RegistryConfig}
    (hrun : registryServer.Runs (applyRegistries lib) { w with stored := mergedList w.stored configs } trace
      out w') :
    RegistriesUpheld w out w' ↔
      (¬ Unread trace ∧ Activatable lib w.stored configs → Apart configs) ∧
      (Unread trace ∨ ¬ Activatable lib w.stored configs → mergedList w.stored configs = w.stored) := by
  have hsame : ({ w with stored := mergedList w.stored configs } : RegistryState) = w ↔
      mergedList w.stored configs = w.stored := by
    obtain ⟨stored, runtime⟩ := w
    exact ⟨fun h => congrArg RegistryState.stored h, fun h => by simpa using h⟩
  rcases applyRegistries_cases hrun with
    ⟨err, answer, rfl, rfl, rfl⟩ | ⟨err, answer, rfl, hconfigure, rfl, rfl⟩ | ⟨next, rfl, hconfigure, rfl, rfl⟩
  · have hunread : Unread [⟨{ w with stored := mergedList w.stored configs }, .getRegistryConfigs,
        .error err⟩] := ⟨_, err, rfl⟩
    rw [upheld_error, hsame]
    exact ⟨fun h => ⟨fun hread => absurd hunread hread.1, fun _ => h⟩, fun h => h.2 (.inl hunread)⟩
  · have hinactive : ¬ Activatable lib w.stored configs := by
      intro hactive
      cases hconfigure.symm.trans (configure_merged.mpr ⟨hactive, rfl⟩)
    rw [upheld_error, hsame]
    exact ⟨fun h => ⟨fun hread => absurd hread.2 hinactive, fun _ => h⟩, fun h => h.2 (.inr hinactive)⟩
  · have hactive := (configure_merged.mp hconfigure).1
    have hread : ¬ Unread [⟨{ w with stored := mergedList w.stored configs }, .getRegistryConfigs,
        .ok (mergedList w.stored configs)⟩,
        ⟨{ w with stored := mergedList w.stored configs }, .activate next, ()⟩] := by
      rintro ⟨v, err, hlast⟩
      cases hlast
    refine Iff.trans upheld_ok (Iff.trans (applied_iff hconfigure) ?_)
    exact ⟨fun h => ⟨fun _ => h, fun hbad => (hbad.elim hread fun hno => hno hactive).elim⟩,
      fun h => h.1 ⟨hread, hactive⟩⟩

/-- A request whose calls all do their work. -/
theorem setRegistries_runs {configs : List RegistryConfig} {next : List RuntimeConfig}
    (hchecked : checkEntries lib w.stored [] configs = .ok ())
    (hconfigure : configure lib ((mergedList w.stored configs).map RegistryConfig.runtime) = .ok next) :
    ∃ trace, registryServer.Runs (handleSetRegistries lib (some configs)) w trace
      (.ok (mergedList w.stored configs)) ⟨mergedList w.stored configs, next⟩ := by
  let merged := mergedList w.stored configs
  let saving : Trace RegistrySettings RegistryState :=
    [⟨w, .getRegistryConfigs, .ok w.stored⟩, ⟨w, .setSecretSetting merged, .ok ()⟩]
  let applying : Trace RegistrySettings RegistryState :=
    [⟨{ w with stored := merged }, .getRegistryConfigs, .ok merged⟩,
      ⟨{ w with stored := merged }, .activate next, ()⟩]
  have hsave : registryServer.Runs (setRegistryConfigs configs) w saving (.ok ())
      { w with stored := merged } :=
    registryServer_request.mpr ⟨.ok w.stored, w, _, .read w, rfl,
      registryServer_request.mpr ⟨.ok (), _, [], .written w merged, rfl, rfl, rfl, rfl⟩⟩
  have happly : registryServer.Runs (applyRegistries lib) { w with stored := merged } applying
      (.ok merged) ⟨merged, next⟩ := by
    refine registryServer_request.mpr ⟨.ok merged, _, _, .read _, rfl, ?_⟩
    simp only [merged, hconfigure]
    exact registryServer_request.mpr ⟨(), _, [], .activated _ next, rfl, rfl, rfl, rfl⟩
  refine ⟨⟨w, .getRegistryConfigs, .ok w.stored⟩ :: (saving ++ applying),
    registryServer_request.mpr ⟨.ok w.stored, w, saving ++ applying, .read w, rfl, ?_⟩⟩
  have hread : checkEntries lib ((Except.ok w.stored : Except GoError _).toOption.getD []) [] configs =
      .ok () := hchecked
  simp only [hread]
  exact Machine.runs_bind.mpr ⟨saving, .ok (), _, applying, hsave, happly, rfl⟩

end Request

/-! ### Two names of one registry -/

/-- The primitives, as far as entries without a proxy and a CA need them. -/
def plainTransports : TransportPrimitives where
  parseURL := URL.parse
  appendCerts _ := false

def dockerAliases : List RegistryConfig :=
  [{ host := "docker.io".toList, username := "reader".toList, password := "first".toList },
    { host := "index.docker.io".toList, username := "writer".toList, password := "second".toList }]

theorem dockerAliases_run : ∃ trace next, registryServer.Runs
    (handleSetRegistries plainTransports (some dockerAliases)) {} trace (.ok dockerAliases)
      ⟨dockerAliases, next⟩ := by
  have hmerged : mergedList [] dockerAliases = dockerAliases := by decide +kernel
  have hchecked : checkEntries plainTransports (RegistryState.stored {}) [] dockerAliases = .ok () := by
    decide +kernel
  have hactive : Activatable plainTransports (RegistryState.stored {}) dockerAliases := by decide +kernel
  obtain ⟨trace, hrun⟩ := setRegistries_runs hchecked (configure_merged.mpr ⟨hactive, rfl⟩)
  rw [show mergedList (RegistryState.stored {}) dockerAliases = dockerAliases from hmerged] at hrun
  exact ⟨trace, _, hrun⟩

end Doupro.Api
