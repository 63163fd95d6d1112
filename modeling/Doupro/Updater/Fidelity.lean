import Doupro.Go.JsonEqual
import Doupro.Updater.Plan

/-!
# Fidelity of a recreated container

What it means that Docker applied a plan, and where `validateRecreation` tells so. It sees numbers
as float64, tells an absent list or map from an empty one, and reads the settings of every network
it expects settings of.
-/

namespace Doupro.Updater

open Json

/-! ### A plan applied -/

/-- Two string maps with the same entries. -/
def SameMap (a b : List (String × String)) : Prop :=
  a.length = b.length ∧ ∀ entry ∈ a, b.lookup entry.1 = some entry.2

/-- The user settings of two endpoints are the same. A list or map that is absent counts as empty;
the response has the planned aliases and those Docker gives on its own. -/
structure SameSettings (own : String → Prop) (expected got : EndpointSettings) : Prop where
  ipamConfig : expected.ipamConfig = got.ipamConfig
  links : expected.links.getD [] = got.links.getD []
  driverOpts : SameMap (expected.driverOpts.getD []) (got.driverOpts.getD [])
  aliases : ∀ name ∈ expected.aliases.getD [], name ∈ got.aliases.getD []
  others : ∀ name ∈ got.aliases.getD [], name ∈ expected.aliases.getD [] ∨ own name
  macAddress : expected.macAddress = "" ∨ expected.macAddress = got.macAddress

/-- The serialized configs occur in the response, up to a relation of their numbers. -/
def Covers (eq : Int → Int → Prop) (plan : RecreationPlan) (actual : InspectResponse) : Prop :=
  ∃ config hostConfig, actual.config = some config ∧ actual.hostConfig = some hostConfig ∧
    Within eq plan.config.toJson config.toJson ∧
    Within eq (normalizedHostConfig plan.hostConfig).toJson (normalizedHostConfig hostConfig).toJson

/-- Each planned network is there, and its settings compare to those planned. -/
def Networks (compare : EndpointSettings → EndpointSettings → Prop) (planned actual : Endpoints) :
    Prop :=
  ∀ entry ∈ planned, ∃ got, actual.lookup entry.1 = some got ∧
    ∀ expected, entry.2 = some expected → ∃ settings, got = some settings ∧
      compare expected settings

/-- Docker applied the plan. -/
def Applied (own : String → Prop) (plan : RecreationPlan) (actual : InspectResponse) : Prop :=
  Covers (· = ·) plan actual ∧
    Networks (SameSettings own) (plan.networkConfig.getD []) (actual.networkSettings.getD [])

/-- Validation returns, and accepts exactly the responses in which Docker applied the plan. -/
def ValidatesExactly (own : String → Prop) (plan : RecreationPlan) (actual : InspectResponse) :
    Prop :=
  validateRecreation plan actual ≠ some .nilDereference ∧
    (validateRecreation plan actual = none ↔ Applied own plan actual)

/-! ### What the code compares -/

/-- The test of `validateEndpoint`. -/
structure PassesEndpoint (expected got : EndpointSettings) : Prop where
  ipamConfig : expected.ipamConfig = got.ipamConfig
  links : expected.links = got.links
  aliases : stringSliceContained expected.aliases got.aliases = true
  driverOpts : sameStringMap expected.driverOpts got.driverOpts = true
  macAddress : expected.macAddress = "" ∨ expected.macAddress = got.macAddress

theorem validateEndpoint_eq_none {name : String} {expected got : EndpointSettings} :
    validateEndpoint name expected got = none ↔ PassesEndpoint expected got := by
  unfold validateEndpoint
  constructor
  · intro h
    split at h
    · exact nomatch h
    · next hsettings =>
      obtain ⟨hipam, hlinks, haliases, hopts⟩ := not_not.mp hsettings
      split at h
      · exact nomatch h
      · next hmac => exact ⟨hipam, hlinks, haliases, hopts, by tauto⟩
  · intro h
    rw [if_neg (not_not.mpr ⟨h.ipamConfig, h.links, h.aliases, h.driverOpts⟩)]
    rw [if_neg]
    rintro ⟨hset, hchanged⟩
    exact h.macAddress.elim hset hchanged

theorem validateEndpoint_returns (name : String) (expected got : EndpointSettings) :
    validateEndpoint name expected got ≠ some .nilDereference := by
  unfold validateEndpoint
  split
  · simp
  · split <;> simp

/-- A planned network with settings that the response lists without any, and every network before
it passes. -/
def ReadsNil (planned actual : Endpoints) : Prop :=
  ∃ before name expected after, planned = before ++ (name, some expected) :: after ∧
    actual.lookup name = some none ∧ Networks PassesEndpoint before actual

theorem networks_cons {compare : EndpointSettings → EndpointSettings → Prop} {name : String}
    {expected : Option EndpointSettings} {rest actual : Endpoints} :
    Networks compare ((name, expected) :: rest) actual ↔
      (∃ got, actual.lookup name = some got ∧ ∀ e, expected = some e →
        ∃ settings, got = some settings ∧ compare e settings) ∧ Networks compare rest actual :=
  List.forall_mem_cons

/-- The loop over the networks passes if every one does, and panics if it reads a missing one. -/
theorem validateNetworks_spec (actual planned : Endpoints) :
    (validateNetworks actual planned = none ↔ Networks PassesEndpoint planned actual) ∧
      (validateNetworks actual planned = some .nilDereference ↔ ReadsNil planned actual) := by
  have hcons : ∀ {entry : String × Option EndpointSettings} {rest : Endpoints},
      ReadsNil (entry :: rest) actual ↔
        (∃ e, entry.2 = some e ∧ actual.lookup entry.1 = some none) ∨
          (Networks PassesEndpoint [entry] actual ∧ ReadsNil rest actual) := by
    intro entry rest
    constructor
    · rintro ⟨before, name, expected, after, hplanned, hnil, hbefore⟩
      cases before with
      | nil =>
        obtain ⟨rfl, -⟩ := List.cons.inj hplanned
        exact .inl ⟨expected, rfl, hnil⟩
      | cons first before =>
        obtain ⟨rfl, rfl⟩ := List.cons.inj hplanned
        obtain ⟨hfirst, hrest⟩ := List.forall_mem_cons.mp hbefore
        exact .inr ⟨by simpa [Networks] using hfirst, before, name, expected, after, rfl, hnil, hrest⟩
    · rintro (⟨e, he, hnil⟩ | ⟨hfirst, before, name, expected, after, rfl, hnil, hbefore⟩)
      · obtain ⟨name, expected⟩ := entry
        obtain rfl : expected = some e := he
        exact ⟨[], name, e, rest, rfl, hnil, fun _ h => nomatch h⟩
      · refine ⟨entry :: before, name, expected, after, rfl, hnil, ?_⟩
        exact List.forall_mem_cons.mpr ⟨hfirst entry List.mem_cons_self, hbefore⟩
  induction planned with
  | nil =>
    refine ⟨iff_of_true rfl (fun _ h => nomatch h), iff_of_false (by simp [validateNetworks]) ?_⟩
    rintro ⟨before, name, expected, after, hplanned, -⟩
    simp at hplanned
  | cons entry rest ih =>
    obtain ⟨name, expected⟩ := entry
    rw [hcons, networks_cons]
    unfold validateNetworks
    cases hlookup : actual.lookup name with
    | none => simp [Networks, hlookup]
    | some got =>
      cases expected with
      | none => simpa [Networks, hlookup] using ih
      | some expected =>
        cases got with
        | none => simp [Networks, hlookup]
        | some got =>
          have hone := @validateEndpoint_eq_none name expected got
          have hreturns := validateEndpoint_returns name expected got
          cases hvalid : validateEndpoint name expected got with
          | none =>
            have hpasses := hone.mp hvalid
            simpa [Networks, hlookup, hpasses, hvalid] using ih
          | some err =>
            have hfails : ¬ PassesEndpoint expected got := by
              rw [← hone, hvalid]
              simp
            have herr : err ≠ .nilDereference := by
              rintro rfl
              exact hreturns hvalid
            simp [Networks, hlookup, hfails, herr, hvalid]

theorem jsonSubset_eq_none {expected actual : Json} {path : String} :
    jsonSubset expected actual path = none ↔ Within Near expected actual := by
  unfold jsonSubset
  rw [Option.map_eq_none_iff, compareSubset_iff]

theorem jsonSubset_returns (expected actual : Json) (path : String) :
    jsonSubset expected actual path ≠ some .nilDereference := by
  unfold jsonSubset
  cases compareSubset expected actual path <;> simp

/-- The comparison of the networks, when both sides may lack them. -/
def networksError (plan : RecreationPlan) (actual : InspectResponse) : Option GoError :=
  match plan.networkConfig with
  | none => none
  | some expected => match actual.networkSettings with
    | none => some (.new "NetworkSettings missing")
    | some networks => validateNetworks networks expected

/-- Once the configs are covered, the networks decide. -/
theorem validateRecreation_of_covers {plan : RecreationPlan} {actual : InspectResponse}
    (h : Covers Near plan actual) : validateRecreation plan actual = networksError plan actual := by
  obtain ⟨config, hostConfig, hconfig, hhost, hin, hhostIn⟩ := h
  unfold validateRecreation
  simp only [hconfig, hhost]
  rw [jsonSubset_eq_none.mpr hin, jsonSubset_eq_none.mpr hhostIn]
  rfl

theorem validateRecreation_of_not_covers {plan : RecreationPlan} {actual : InspectResponse}
    (h : ¬ Covers Near plan actual) :
    validateRecreation plan actual ≠ none ∧
      validateRecreation plan actual ≠ some .nilDereference := by
  unfold validateRecreation
  cases hconfig : actual.config with
  | none => simp
  | some config =>
    cases hhost : actual.hostConfig with
    | none => simp
    | some hostConfig =>
      dsimp only
      cases hcheck : jsonSubset plan.config.toJson config.toJson "Config" with
      | some err =>
        have herr := jsonSubset_returns plan.config.toJson config.toJson "Config"
        rw [hcheck] at herr
        simpa using herr
      | none =>
        cases hhostCheck : jsonSubset (normalizedHostConfig plan.hostConfig).toJson
            (normalizedHostConfig hostConfig).toJson "HostConfig" with
        | some err =>
          have herr := jsonSubset_returns (normalizedHostConfig plan.hostConfig).toJson
            (normalizedHostConfig hostConfig).toJson "HostConfig"
          rw [hhostCheck] at herr
          simpa using herr
        | none =>
          exact absurd ⟨config, hostConfig, hconfig, hhost, jsonSubset_eq_none.mp hcheck,
            jsonSubset_eq_none.mp hhostCheck⟩ h

/-! ### Where the comparison is exact -/

/-- The response gives an alias that is neither planned nor Docker's own. -/
def Stray (own : String → Prop) (expected got : EndpointSettings) : Prop :=
  ∃ name ∈ got.aliases.getD [], name ∉ expected.aliases.getD [] ∧ ¬ own name

/-- One side has no list of links, or no map of options, and the other has an empty one. -/
def Blurred (expected got : EndpointSettings) : Prop :=
  expected.links.isSome ≠ got.links.isSome ∨ expected.driverOpts.isSome ≠ got.driverOpts.isSome

/-- Every planned network that is listed with settings has them compare in a way. -/
def EachListed (compare : EndpointSettings → EndpointSettings → Prop) (planned actual : Endpoints) :
    Prop :=
  ∀ name expected got, (name, some expected) ∈ planned → actual.lookup name = some (some got) →
    compare expected got

theorem isSome_of_stringSlice {a b : Option (List String)} (h : a.getD [] = b.getD [])
    (hsome : a.isSome = b.isSome) : a = b := by
  cases a <;> cases b <;> simp_all

theorem sameStringMap_iff {a b : Option (List (String × String))} :
    sameStringMap a b = true ↔ a.isSome = b.isSome ∧ SameMap (a.getD []) (b.getD []) := by
  cases a <;> cases b <;> simp [sameStringMap, SameMap]

theorem stringSliceContained_iff {want got : Option (List String)} :
    stringSliceContained want got = true ↔ ∀ name ∈ want.getD [], name ∈ got.getD [] := by
  simp [stringSliceContained]

theorem passesEndpoint_iff {own : String → Prop} {expected got : EndpointSettings}
    (hstray : ¬ Stray own expected got) (hblurred : ¬ Blurred expected got) :
    PassesEndpoint expected got ↔ SameSettings own expected got := by
  have hothers : ∀ name ∈ got.aliases.getD [], name ∈ expected.aliases.getD [] ∨ own name := by
    intro name hname
    by_contra hnot
    exact hstray ⟨name, hname, fun h => hnot (.inl h), fun h => hnot (.inr h)⟩
  unfold Blurred at hblurred
  push Not at hblurred
  constructor
  · intro h
    exact
      { ipamConfig := h.ipamConfig
        links := by rw [h.links]
        driverOpts := (sameStringMap_iff.mp h.driverOpts).2
        aliases := stringSliceContained_iff.mp h.aliases
        others := hothers
        macAddress := h.macAddress }
  · intro h
    exact
      { ipamConfig := h.ipamConfig
        links := isSome_of_stringSlice h.links hblurred.1
        aliases := stringSliceContained_iff.mpr h.aliases
        driverOpts := sameStringMap_iff.mpr ⟨hblurred.2, h.driverOpts⟩
        macAddress := h.macAddress }

theorem PassesEndpoint.not_blurred {expected got : EndpointSettings}
    (h : PassesEndpoint expected got) : ¬ Blurred expected got := by
  rintro (hlinks | hopts)
  · exact hlinks (by rw [h.links])
  · exact hopts (sameStringMap_iff.mp h.driverOpts).1

theorem SameSettings.not_stray {own : String → Prop} {expected got : EndpointSettings}
    (h : SameSettings own expected got) : ¬ Stray own expected got := by
  rintro ⟨name, hname, hplanned, hown⟩
  exact (h.others name hname).elim hplanned hown

/-- A comparison of each network, exchanged for another on those that are listed. -/
theorem Networks.congr {p q : EndpointSettings → EndpointSettings → Prop} {planned actual : Endpoints}
    (h : Networks p planned actual)
    (hpq : EachListed (fun expected got => p expected got → q expected got) planned actual) :
    Networks q planned actual := by
  intro entry hentry
  obtain ⟨got, hgot, hsettings⟩ := h entry hentry
  refine ⟨got, hgot, fun expected hexpected => ?_⟩
  obtain ⟨settings, rfl, hp⟩ := hsettings expected hexpected
  exact ⟨settings, rfl, hpq entry.1 expected settings (hexpected ▸ hentry) hgot hp⟩

theorem Networks.listed {p : EndpointSettings → EndpointSettings → Prop} {planned actual : Endpoints}
    (h : Networks p planned actual) : EachListed p planned actual := by
  intro name expected got hentry hgot
  obtain ⟨got', hgot', hsettings⟩ := h (name, some expected) hentry
  rw [hgot] at hgot'
  obtain rfl := Option.some.inj hgot'
  obtain ⟨settings, hsome, hp⟩ := hsettings expected rfl
  obtain rfl := Option.some.inj hsome
  exact hp

/-- The planned networks, and those of the response. -/
def RecreationPlan.planned (plan : RecreationPlan) : Endpoints := plan.networkConfig.getD []

def listedNetworks (actual : InspectResponse) : Endpoints := actual.networkSettings.getD []

/-- What keeps the comparison exact, in a response whose configs are covered but for the rounding
of numbers: no planned network before the first difference is listed without settings; if no
difference is left, no number was rounded to another and no alias is a stray; and if Docker
applied the plan, both sides have their lists and maps, or neither. -/
structure Discernible (own : String → Prop) (plan : RecreationPlan) (actual : InspectResponse) :
    Prop where
  filled : ¬ ReadsNil plan.planned (listedNetworks actual)
  sharp : (plan.networkConfig.isSome → actual.networkSettings.isSome) →
    Networks PassesEndpoint plan.planned (listedNetworks actual) →
    Covers (· = ·) plan actual ∧
      EachListed (fun expected got => ¬ Stray own expected got) plan.planned (listedNetworks actual)
  alike : Applied own plan actual →
    (plan.networkConfig.isSome → actual.networkSettings.isSome) ∧
      EachListed (fun expected got => ¬ Blurred expected got) plan.planned (listedNetworks actual)

theorem networksError_eq_none {plan : RecreationPlan} {actual : InspectResponse} :
    networksError plan actual = none ↔
      (plan.networkConfig.isSome → actual.networkSettings.isSome) ∧
        Networks PassesEndpoint plan.planned (listedNetworks actual) := by
  unfold networksError RecreationPlan.planned listedNetworks
  cases plan.networkConfig with
  | none => exact iff_of_true rfl ⟨(fun h => nomatch h), (fun _ h => nomatch h)⟩
  | some planned =>
    cases actual.networkSettings with
    | none => simp
    | some networks => simpa using (validateNetworks_spec networks planned).1

theorem networksError_eq_nil {plan : RecreationPlan} {actual : InspectResponse} :
    networksError plan actual = some .nilDereference ↔
      ReadsNil plan.planned (listedNetworks actual) := by
  unfold networksError RecreationPlan.planned listedNetworks
  cases plan.networkConfig with
  | none =>
    refine iff_of_false (by simp) ?_
    rintro ⟨before, name, expected, after, hplanned, -⟩
    simp at hplanned
  | some planned =>
    cases actual.networkSettings with
    | none =>
      refine iff_of_false (by simp) ?_
      rintro ⟨before, name, expected, after, -, hnil, -⟩
      simp at hnil
    | some networks => exact (validateNetworks_spec networks planned).2

theorem near_of_eq (m n : Int) (h : m = n) : Near m n := congrArg float64 h

theorem Covers.mono {eq eq' : Int → Int → Prop} (h : ∀ m n, eq m n → eq' m n)
    {plan : RecreationPlan} {actual : InspectResponse} (hcovers : Covers eq plan actual) :
    Covers eq' plan actual := by
  obtain ⟨config, hostConfig, hconfig, hhost, hin, hhostIn⟩ := hcovers
  exact ⟨config, hostConfig, hconfig, hhost, hin.mono h, hhostIn.mono h⟩

/-- Validation is exact for a plan and a response exactly if the configs differ in more than the
rounding of numbers, or what it compares of the networks can be told apart. -/
theorem validatesExactly_iff (own : String → Prop) (plan : RecreationPlan)
    (actual : InspectResponse) :
    ValidatesExactly own plan actual ↔ (Covers Near plan actual → Discernible own plan actual) := by
  unfold ValidatesExactly
  by_cases hcovers : Covers Near plan actual
  · rw [validateRecreation_of_covers hcovers, ne_eq, networksError_eq_nil, networksError_eq_none]
    constructor
    · rintro ⟨hfilled, hexact⟩ -
      refine ⟨hfilled, fun hpresent hpasses => ?_, fun happlied => ?_⟩
      · obtain ⟨hsame, hnetworks⟩ := hexact.mp ⟨hpresent, hpasses⟩
        exact ⟨hsame, fun name expected got hentry hgot =>
          (hnetworks.listed name expected got hentry hgot).not_stray⟩
      · obtain ⟨hpresent, hpasses⟩ := hexact.mpr happlied
        exact ⟨hpresent, fun name expected got hentry hgot =>
          (hpasses.listed name expected got hentry hgot).not_blurred⟩
    · intro h
      obtain ⟨hfilled, hsharp, halike⟩ := h hcovers
      refine ⟨hfilled, ?_, ?_⟩
      · rintro ⟨hpresent, hpasses⟩
        obtain ⟨hsame, hstray⟩ := hsharp hpresent hpasses
        refine ⟨hsame, hpasses.congr fun name expected got hentry hgot hone => ?_⟩
        exact (passesEndpoint_iff (hstray name expected got hentry hgot) hone.not_blurred).mp hone
      · intro happlied
        obtain ⟨hpresent, hblurred⟩ := halike happlied
        refine ⟨hpresent, happlied.2.congr fun name expected got hentry hgot hone => ?_⟩
        exact (passesEndpoint_iff hone.not_stray (hblurred name expected got hentry hgot)).mpr hone
  · obtain ⟨hrejects, hreturns⟩ := validateRecreation_of_not_covers hcovers
    refine iff_of_true ⟨hreturns, iff_of_false hrejects ?_⟩ fun h => absurd h hcovers
    exact fun happlied => hcovers (happlied.1.mono near_of_eq)

/-- A running container on one network. -/
def onNetwork (image : String) (endpoint : Option EndpointSettings) : InspectResponse where
  id := "1f0c"
  name := "/app"
  image := "sha256:aa"
  restartCount := 0
  config := some { image := image }
  hostConfig := some {}
  state := some { status := .running }
  networkSettings := some [("web", endpoint)]
  mounts := []

theorem nil_endpoint_panics :
    ¬ ∀ (own : String → Prop) (before : InspectResponse) (targetImage : String)
      (plan : RecreationPlan) (actual : InspectResponse),
      buildRecreationPlan before targetImage = .ok plan → ValidatesExactly own plan actual := by
  intro h
  have hexact := h (fun _ => False) (onNetwork "app:1" (some {})) "app:2" _
    (onNetwork "app:2" none) rfl
  exact hexact.1 (by decide +kernel)

end Doupro.Updater
