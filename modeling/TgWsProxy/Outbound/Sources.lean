import TgWsProxy.Outbound.NoProxy

set_option relaxedAutoImplicit false
set_option autoImplicit false

/-!
# Which settings win

An outbound proxy can be named on the command line and in six environment variables, a list of
exceptions on the command line and in two. This module says which of them decide, independently of
the loops of `outbound/config.rs`, and that the loops agree.

## Main definitions

* `TgWsProxy.setting`, `Decides` — a value that is not blank, and what it decides.
* `TgWsProxy.ProxyChoice`, `NoProxyChoice` — which source wins.

## Main results

* `TgWsProxy.selectEnvLoop_eq` — the loop over the variables.
* `TgWsProxy.selectProxy_iff` — the choice of the proxy.
* `TgWsProxy.fromSources_iff` — the configuration is the one that the sources choose.
-/

namespace TgWsProxy

open Text

variable (crates : AddressCrates) (env : Host → Option Host)

/-! ## Which source decides -/

/-- The value of a setting, without the white space around it; a blank one counts as none. -/
def setting (value : Option Host) : Option Host := (value.map trim).filter (· ≠ [])

/-- What a value that is set stands for: no proxy, or the proxy of its URL. -/
inductive Decides (value : Host) : Option ProxyConfig → Prop
  | direct : isDirectMarker value = true → Decides value none
  | proxy {proxy : ProxyConfig} : isDirectMarker value = false →
      ProxyConfig.parse crates value = .ok proxy → Decides value (some proxy)

/-- The choice of the proxy: the command line, then the first variable that decides. -/
inductive ProxyChoice (explicit : Option Host) (useEnv : Bool) : Option ProxyConfig → Prop
  | explicit {value : Host} {choice : Option ProxyConfig} : setting explicit = some value →
      Decides crates value choice → ProxyChoice explicit useEnv choice
  | disabled : setting explicit = none → useEnv = false → ProxyChoice explicit useEnv none
  | fromEnv {before after : List Host} {name value : Host} {choice : Option ProxyConfig} :
      setting explicit = none → useEnv = true → proxyVariables = before ++ name :: after →
      (∀ earlier ∈ before, ∀ v, setting (env earlier) = some v → ∀ c, ¬ Decides crates v c) →
      setting (env name) = some value → Decides crates value choice →
      ProxyChoice explicit useEnv choice
  | unset : setting explicit = none → useEnv = true →
      (∀ name ∈ proxyVariables, setting (env name) = none) → ProxyChoice explicit useEnv none

/-- The choice of the exceptions: none are read without a proxy; with one, the command line goes
before the environment even where it is blank, and all the entries have to be valid. -/
structure NoProxyChoice (explicit : Option Host) (useEnv : Bool) (proxy : Option ProxyConfig)
    (noProxy : Option Host) : Prop where
  unused : proxy = none → noProxy = none
  source : proxy.isSome = true → noProxy = (selectNoProxy env explicit useEnv).filter (· ≠ [])
  valid : ∀ list, noProxy = some list → ∀ entry ∈ noProxyEntries list, NoProxyEntry crates entry

/-! ## The loop over the variables -/

/-- What a variable decides, if anything. -/
def decision (named : Host × Option Host) : Option (Option ProxyConfig) :=
  (setting named.2).bind fun value =>
    if isDirectMarker value then some none else (ProxyConfig.parse crates value).toOption.map some

/-- What is wrong with a variable that is set and decides nothing. -/
def complaint (named : Host × Option Host) : Option Host :=
  (setting named.2).bind fun value =>
    if isDirectMarker value then none
    else
      match ProxyConfig.parse crates value with
      | .ok _ => none
      | .error err => some (named.1 ++ ": ".toList ++ err)

variable {crates env}

theorem setting_some {value : Host} :
    setting (some value) = if trim value = [] then none else some (trim value) := by
  unfold setting
  by_cases h : trim value = []
  · simp [h]
  · simp [h]

theorem decision_eq_some_iff {name : Host} {value : Option Host} {choice : Option ProxyConfig} :
    decision crates (name, value) = some choice ↔
      ∃ v, setting value = some v ∧ Decides crates v choice := by
  unfold decision
  rw [Option.bind_eq_some_iff]
  refine exists_congr fun v => and_congr_right fun _ => ?_
  constructor
  · intro h
    split_ifs at h with hdirect
    · cases h
      exact .direct hdirect
    · obtain ⟨proxy, hparse, rfl⟩ := Option.map_eq_some_iff.mp h
      cases hp : ProxyConfig.parse crates v with
      | error err => simp [hp, Except.toOption] at hparse
      | ok p =>
        simp only [hp, Except.toOption, Option.some.injEq] at hparse
        exact .proxy (by simpa using hdirect) (hparse ▸ hp)
  · rintro (hdirect | ⟨hdirect, hparse⟩)
    · exact if_pos hdirect
    · rw [if_neg (by simp [hdirect]), hparse]
      rfl

/-- **The loop** stops at the first variable that decides; failing that, it reports the first one
that is set. -/
theorem selectEnvLoop_eq (values : List (Host × Option Host)) (firstError : Option Host) :
    selectEnvLoop crates firstError values =
      (values.findSome? (decision crates)).elim
        (selectEnvLoop crates (firstError.or (values.findSome? (complaint crates))) []) .ok := by
  induction values generalizing firstError with
  | nil => simp
  | cons head values ih =>
    obtain ⟨name, value⟩ := head
    rw [List.findSome?_cons, List.findSome?_cons]
    cases value with
    | none =>
      rw [selectEnvLoop, ih]
      rfl
    | some value =>
      rw [selectEnvLoop]
      simp only [decision, complaint, setting_some]
      split_ifs with hblank hdirect
      · rw [ih]
        rfl
      · simp [hdirect]
      · cases hparse : ProxyConfig.parse crates (trim value) with
        | ok proxy => simp [hdirect, hparse, Except.toOption]
        | error err =>
          simp only [Option.bind_some, hdirect, hparse, Except.toOption, Option.map_none, if_false,
            Bool.false_eq_true]
          rw [ih]
          cases firstError <;> rfl

theorem complaint_eq_none_iff {name : Host} {value : Option Host} :
    complaint crates (name, value) = none ↔
      ∀ v, setting value = some v → ∃ c, Decides crates v c := by
  unfold complaint
  cases hvalue : setting value with
  | none => simp
  | some v =>
    simp only [Option.bind_some, Option.some.injEq, forall_eq']
    by_cases hdirect : isDirectMarker v = true
    · rw [if_pos hdirect]
      exact iff_of_true rfl ⟨none, .direct hdirect⟩
    · rw [if_neg hdirect]
      cases hparse : ProxyConfig.parse crates v with
      | ok proxy => exact iff_of_true rfl ⟨some proxy, .proxy (by simpa using hdirect) hparse⟩
      | error err =>
        refine iff_of_false (by simp) ?_
        rintro ⟨c, h | ⟨-, h⟩⟩
        · exact hdirect h
        · rw [hparse] at h
          cases h

theorem decision_eq_none_iff {name : Host} {value : Option Host} :
    decision crates (name, value) = none ↔
      ∀ v, setting value = some v → ∀ c, ¬ Decides crates v c := by
  rw [Option.eq_none_iff_forall_ne_some]
  simp only [ne_eq, decision_eq_some_iff, not_exists, not_and]
  exact ⟨fun h v hv c => h c v hv, fun h c v hv => h v hv c⟩

/-- The first variable that decides. -/
theorem findSome?_decision_iff {names : List Host} {choice : Option ProxyConfig} :
    (names.map fun name => (name, env name)).findSome? (decision crates) = some choice ↔
      ∃ before name after value, names = before ++ name :: after ∧
        (∀ earlier ∈ before, ∀ v, setting (env earlier) = some v → ∀ c, ¬ Decides crates v c) ∧
        setting (env name) = some value ∧ Decides crates value choice := by
  rw [List.findSome?_map, List.findSome?_eq_some_iff]
  constructor
  · rintro ⟨before, name, after, hnames, hname, hbefore⟩
    obtain ⟨value, hvalue, hdecides⟩ := decision_eq_some_iff.mp hname
    exact ⟨before, name, after, value, hnames,
      fun earlier h => decision_eq_none_iff.mp (hbefore earlier h), hvalue, hdecides⟩
  · rintro ⟨before, name, after, value, hnames, hbefore, hvalue, hdecides⟩
    exact ⟨before, name, after, hnames, decision_eq_some_iff.mpr ⟨value, hvalue, hdecides⟩,
      fun earlier h => decision_eq_none_iff.mpr (hbefore earlier h)⟩

/-- What the loop comes to without a variable that decides. -/
theorem selectEnvLoop_nil_iff {firstError : Option Host} {choice : Option ProxyConfig} :
    selectEnvLoop crates firstError [] = .ok choice ↔ firstError = none ∧ choice = none := by
  cases firstError with
  | none => simp [selectEnvLoop, eq_comm]
  | some err => simp [selectEnvLoop]

/-- The choice among the variables. -/
theorem selectEnvProxy_iff {names : List Host} {choice : Option ProxyConfig} :
    selectEnvProxy crates (names.map fun name => (name, env name)) = .ok choice ↔
      (∃ before name after value, names = before ++ name :: after ∧
        (∀ earlier ∈ before, ∀ v, setting (env earlier) = some v → ∀ c, ¬ Decides crates v c) ∧
        setting (env name) = some value ∧ Decides crates value choice) ∨
      (∀ name ∈ names, setting (env name) = none) ∧ choice = none := by
  rw [selectEnvProxy, selectEnvLoop_eq, Option.none_or, ← findSome?_decision_iff]
  cases hdecision : (names.map fun name => (name, env name)).findSome? (decision crates) with
  | some decided =>
    obtain ⟨before, name, after, value, rfl, -, hvalue, -⟩ := findSome?_decision_iff.mp hdecision
    rw [Option.elim_some, Except.ok.injEq, Option.some.injEq, or_iff_left]
    rintro ⟨hunset, -⟩
    rw [hunset name (by simp)] at hvalue
    cases hvalue
  | none =>
    rw [Option.elim_none, selectEnvLoop_nil_iff, or_iff_right (by simp)]
    refine and_congr_left fun _ => ?_
    rw [List.findSome?_map, List.findSome?_eq_none_iff]
    rw [List.findSome?_map, List.findSome?_eq_none_iff] at hdecision
    constructor
    · intro hcomplaint name hname
      by_contra hset
      obtain ⟨v, hv⟩ := Option.ne_none_iff_exists'.mp hset
      -- a variable that neither decides nor is complained about is not set
      obtain ⟨c, hc⟩ := complaint_eq_none_iff.mp (hcomplaint name hname) v hv
      exact decision_eq_none_iff.mp (hdecision name hname) v hv c hc
    · intro hunset name hname
      apply complaint_eq_none_iff.mpr
      intro v hv
      rw [hunset name hname] at hv
      cases hv

/-! ## The choice -/

theorem selectProxyFromEnv_iff {useEnv : Bool} {choice : Option ProxyConfig}
    {explicit : Option Host} (hunset : setting explicit = none) :
    selectProxyFromEnv crates env useEnv = .ok choice ↔
      ProxyChoice crates env explicit useEnv choice := by
  unfold selectProxyFromEnv
  constructor
  · intro h
    split_ifs at h with huse
    · rcases selectEnvProxy_iff.mp h with
        ⟨before, name, after, value, hnames, hbefore, hvalue, hdecides⟩ | ⟨hnone, rfl⟩
      · exact .fromEnv hunset huse hnames hbefore hvalue hdecides
      · exact .unset hunset huse hnone
    · cases h
      exact .disabled hunset (by simpa using huse)
  · rintro (⟨hset, -⟩ | ⟨-, huse⟩ | ⟨-, huse, hnames, hbefore, hvalue, hdecides⟩ | ⟨-, huse, hnone⟩)
    · rw [hunset] at hset
      cases hset
    · rw [huse]
      rfl
    · rw [if_pos huse]
      exact selectEnvProxy_iff.mpr (.inl ⟨_, _, _, _, hnames, hbefore, hvalue, hdecides⟩)
    · rw [if_pos huse]
      exact selectEnvProxy_iff.mpr (.inr ⟨hnone, rfl⟩)

/-- **The proxy** is the one that the sources choose. -/
theorem selectProxy_iff {explicit : Option Host} {useEnv : Bool} {choice : Option ProxyConfig} :
    selectProxy crates env explicit useEnv = .ok choice ↔
      ProxyChoice crates env explicit useEnv choice := by
  cases explicit with
  | none => exact selectProxyFromEnv_iff rfl
  | some value =>
    unfold selectProxy
    simp only
    by_cases hblank : trim value = []
    · rw [if_pos hblank]
      exact selectProxyFromEnv_iff (by rw [setting_some, if_pos hblank])
    rw [if_neg hblank]
    have hset : setting (some value) = some (trim value) := by rw [setting_some, if_neg hblank]
    constructor
    · intro h
      split_ifs at h with hdirect
      · cases h
        exact .explicit hset (.direct hdirect)
      · cases hparse : ProxyConfig.parse crates (trim value) with
        | error err => simp [hparse, Except.map] at h
        | ok proxy =>
          simp only [hparse, Except.map, Except.ok.injEq] at h
          rw [← h]
          exact .explicit hset (.proxy (by simpa using hdirect) hparse)
    · rintro (⟨hvalue, hdecides⟩ | ⟨hunset, -⟩ | ⟨hunset, -⟩ | ⟨hunset, -⟩)
      · rw [hset] at hvalue
        cases hvalue
        rcases hdecides with hdirect | ⟨hdirect, hparse⟩
        · exact if_pos hdirect
        · rw [if_neg (by simp [hdirect]), hparse]
          rfl
      all_goals
        rw [hset] at hunset
        cases hunset

/-- The list of exceptions. -/
theorem usedNoProxy_iff {source used : Option Host} :
    usedNoProxy crates source = .ok used ↔ used = source.filter (· ≠ []) ∧
      ∀ list, used = some list → ∀ entry ∈ noProxyEntries list, NoProxyEntry crates entry := by
  unfold usedNoProxy
  cases source.filter (· ≠ []) with
  | none =>
    simp only [Except.ok.injEq]
    constructor
    · rintro rfl
      exact ⟨rfl, fun list hlist => by cases hlist⟩
    · exact fun h => h.1.symm
  | some list =>
    simp only
    cases hvalid : validateNoProxy crates list with
    | ok u =>
      simp only [Except.map, Except.ok.injEq]
      constructor
      · rintro rfl
        refine ⟨rfl, fun list' hlist => ?_⟩
        cases hlist
        exact validateNoProxy_iff.mp hvalid
      · exact fun h => h.1.symm
    | error err =>
      simp only [Except.map, reduceCtorEq, false_iff, not_and]
      rintro rfl hentries
      rw [validateNoProxy_iff.mpr (hentries list rfl)] at hvalid
      cases hvalid

/-- **The sources of the configuration.** It is built exactly from what they choose: an explicit
setting that is not blank goes before the environment, the first variable that decides goes before
the others, and the exceptions are read and checked only if there is a proxy.

**Proof sketch.** The loop over the variables is a search for the first one that decides, and the
validator is the grammar of its entries. -/
theorem fromSources_iff (crates : AddressCrates) (env : Host → Option Host)
    (outboundProxy noProxy : Option Host) (useEnv : Bool) (config : OutboundConfig) :
    OutboundConfig.fromSources crates env outboundProxy noProxy useEnv = .ok config ↔
      ProxyChoice crates env outboundProxy useEnv config.proxy ∧
        NoProxyChoice crates env noProxy useEnv config.proxy config.noProxy := by
  obtain ⟨proxy, list⟩ := config
  unfold OutboundConfig.fromSources
  rw [← selectProxy_iff]
  cases hproxy : selectProxy crates env outboundProxy useEnv with
  | error err => simp [bind, Except.bind]
  | ok chosen =>
    simp only [bind, Except.bind, pure, Except.pure, Except.ok.injEq]
    cases chosen with
    | none =>
      simp only [Option.isSome_none, Bool.false_eq_true, if_false, Except.ok.injEq,
        OutboundConfig.mk.injEq]
      constructor
      · rintro ⟨rfl, rfl⟩
        exact ⟨rfl, fun _ => rfl, fun h => (by cases h), fun list hlist => (by cases hlist)⟩
      · rintro ⟨rfl, hchoice⟩
        exact ⟨rfl, (hchoice.unused rfl).symm⟩
    | some p =>
      simp only [Option.isSome_some, if_true]
      cases hused : usedNoProxy crates (selectNoProxy env noProxy useEnv) with
      | error err =>
        refine iff_of_false (by simp) ?_
        rintro ⟨rfl, hchoice⟩
        have hvalid := usedNoProxy_iff.mpr ⟨hchoice.source rfl, hchoice.valid⟩
        rw [hvalid] at hused
        cases hused
      | ok used =>
        obtain ⟨hsource, hvalid⟩ := usedNoProxy_iff.mp hused
        simp only [Except.ok.injEq, OutboundConfig.mk.injEq]
        constructor
        · rintro ⟨rfl, rfl⟩
          exact ⟨rfl, fun h => (by cases h), fun _ => hsource, hvalid⟩
        · rintro ⟨rfl, hchoice⟩
          exact ⟨rfl, hsource.trans (hchoice.source rfl).symm⟩

end TgWsProxy
