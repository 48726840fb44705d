import Netband.Health
import Netband.State

/-!
The bandwidth part of a configuration, as `resolve_bandwidth` reads and checks it.

Options of the command line stand before options of the configuration file, and these before
the defaults. Durations are texts that `humantime` parses; the checks of URLs and of the direct
endpoint are taken as they come.
-/

namespace Netband.Settings

open Netband.Time Netband.Model Netband.State Netband.Health

/-- `humantime`: the nanoseconds of a text, and the text of a duration. -/
structure Humantime where
  parseDuration : String → Except String ℕ
  formatDuration : ℕ → String

/-- A canonical provider, as the first digits of a digest. -/
abbrev ProviderId := { id : String // id ≠ "" }

structure TriggerOptions where
  windowRounds : Option UInt32 := none
  minSamples : Option UInt32 := none
  lossThresholdPct : Option ℚ := none
  rttThresholdMs : Option ℚ := none
  recoveryLossPct : Option ℚ := none
  recoveryRounds : Option UInt32 := none
  pendingTtl : Option String := none

structure CooldownOptions where
  initial : Option String := none
  max : Option String := none

structure DirectOptions where
  target : Option String := none
  downloadUrl : Option String := none
  uploadUrl : Option String := none
  tlsServerName : Option String := none
  caCert : Option String := none
  allowInsecure : Bool := false

/-- The options of the command line, or of the file. -/
structure BandwidthOptions where
  provider : Option ProviderKind := none
  dailyMax : Option UInt32 := none
  minSpacing : Option String := none
  slotJitterPct : Option UInt8 := none
  wholeTestTimeout : Option String := none
  shutdownMargin : Option String := none
  acceptMlabPolicy : Bool := false
  trigger : TriggerOptions := {}
  cooldown : CooldownOptions := {}
  locateUrl : Option String := none
  direct : DirectOptions := {}

structure CooldownConfig where
  initial : ℕ
  max : ℕ

structure BandwidthConfig where
  provider : ProviderKind
  providerId : ProviderId
  automaticEnabled : Bool
  forceLimits : Bool
  dailyMax : UInt32
  minSpacing : ℕ
  slotJitterPct : UInt8
  wholeTestTimeout : ℕ
  shutdownMargin : ℕ
  trigger : HealthConfig
  pendingTtl : ℕ
  cooldown : CooldownConfig

/-- What the checks of every provider ensure. -/
structure BandwidthConfig.Accepted (config : BandwidthConfig) : Prop where
  minSpacing : 60000000000 ≤ config.minSpacing
  slotJitterPct : config.slotJitterPct ≤ 100
  trigger : config.trigger.Accepted
  cooldown : config.cooldown.initial ≤ config.cooldown.max

/-- `SchedulerPolicy::from`. -/
def BandwidthConfig.policy (config : BandwidthConfig) (h : config.Accepted) :
    SchedulerPolicy where
  providerId := config.providerId
  providerKind := config.provider
  forceLimits := config.forceLimits
  dailyMax := config.dailyMax.toNat
  minSpacing := config.minSpacing
  slotJitterPct := config.slotJitterPct.toNat
  pendingTtl := config.pendingTtl
  cooldownInitial := config.cooldown.initial
  cooldownMax := config.cooldown.max
  providerId_ne := config.providerId.2
  dailyMax_le := Nat.le_of_lt_succ config.dailyMax.toNat_lt
  minSpacing_ge := h.minSpacing
  slotJitterPct_le := h.slotJitterPct

/-! ### Checks of single values -/

section checks
variable (humantime : Humantime)

def parseDuration (name value : String) : Except String ℕ :=
  match humantime.parseDuration value with
  | .error source => .error ("invalid " ++ name ++ " \"" ++ value ++ "\": " ++ source)
  | .ok duration =>
    if duration = 0 then .error (name ++ " must be greater than zero") else .ok duration

def positiveU32 (name : String) (value : UInt32) : Except String UInt32 :=
  if value = 0 then .error (name ++ " must be greater than zero") else .ok value

def percentage (name : String) (value : ℚ) : Except String ℚ :=
  if 0 ≤ value ∧ value ≤ 100 then .ok value
  else .error (name ++ " must be between 0 and 100 percent")

def optionalPositive (name : String) : Option ℚ → Except String (Option ℚ)
  | some value => if 0 < value then .ok (some value)
    else .error (name ++ " must be greater than zero")
  | none => .ok none

/-! ### The parts of a configuration -/

def resolveTrigger (cli file : TriggerOptions) : Except String (HealthConfig × ℕ) := do
  let windowRounds ← positiveU32 "loss window rounds"
    ((cli.windowRounds <|> file.windowRounds).getD 6)
  let minSamples ← positiveU32 "loss minimum samples"
    ((cli.minSamples <|> file.minSamples).getD 6)
  let lossThresholdPct ← percentage "loss threshold"
    ((cli.lossThresholdPct <|> file.lossThresholdPct).getD 50)
  let rttThresholdMs ← optionalPositive "RTT threshold" (cli.rttThresholdMs <|> file.rttThresholdMs)
  let recoveryLossPct ← percentage "recovery loss threshold"
    ((cli.recoveryLossPct <|> file.recoveryLossPct).getD 10)
  let recoveryRounds ← positiveU32 "recovery rounds"
    ((cli.recoveryRounds <|> file.recoveryRounds).getD 3)
  let pendingTtl ← parseDuration humantime "pending trigger lifetime"
    ((cli.pendingTtl <|> file.pendingTtl).getD "30m")
  if lossThresholdPct ≤ recoveryLossPct then
    .error "recovery loss threshold must be below the trigger loss threshold"
  else
    .ok ({ windowRounds := windowRounds.toNat, minSamples := minSamples.toNat, lossThresholdPct,
           rttThresholdMs, recoveryLossPct, recoveryRounds := recoveryRounds.toNat }, pendingTtl)

def resolveCooldown (cli file : CooldownOptions) : Except String CooldownConfig := do
  let initial ← parseDuration humantime "initial cooldown"
    ((cli.initial <|> file.initial).getD "60s")
  let max ← parseDuration humantime "maximum cooldown" ((cli.max <|> file.max).getD "16m")
  if max < initial then .error "initial cooldown cannot exceed maximum cooldown"
  else .ok { initial, max }

/-- The spacing that a whole direct test needs. -/
def directMinimum (wholeTestTimeout shutdownMargin : ℕ) : Except String ℕ :=
  if (wholeTestTimeout + shutdownMargin) / 1000000000 ≤ u64Max then
    .ok (max (wholeTestTimeout + shutdownMargin) 60000000000)
  else .error "bandwidth timeout plus shutdown margin is too large"

/-- The checks of a direct provider's spacing and cap. -/
def checkDirect (dailyMax : UInt32) (minSpacing wholeTestTimeout shutdownMargin : ℕ) :
    Except String Unit := do
  let minimum ← directMinimum wholeTestTimeout shutdownMargin
  if minSpacing < minimum then
    .error ("direct bandwidth minimum spacing must be at least " ++
      humantime.formatDuration minimum)
  else if 86400 / (minSpacing / 1000000000) < dailyMax.toNat then
    .error ("daily maximum " ++ toString dailyMax ++ " cannot fit in 24h with " ++
      humantime.formatDuration minSpacing ++ " minimum spacing")
  else .ok ()

end checks

/-! ### The whole -/

/-- The checks of URLs and of the direct endpoint, and the digest of M-Lab. -/
structure Endpoints where
  parseHttpUrl : String → String → Except String Unit
  mlabId : ProviderId
  resolveDirect : DirectOptions → DirectOptions → Except String ProviderId

def DirectOptions.given (options : DirectOptions) : Bool :=
  options.target.isSome || options.downloadUrl.isSome || options.uploadUrl.isSome ||
    options.tlsServerName.isSome || options.caCert.isSome || options.allowInsecure

def defaultLocateUrl : String := "https://locate.measurementlab.net/v2/nearest/ndt/ndt7"

section resolve
variable (humantime : Humantime) (endpoints : Endpoints)

/-- The provider, and whether it runs by itself. -/
def resolveProvider (cli file : BandwidthOptions) (dailyMax : UInt32) (minSpacing : ℕ) :
    ProviderKind → Except String (ProviderId × Bool)
  | .mlab =>
    if cli.direct.given || file.direct.given then
      .error "direct NDT options require --ndt-provider direct"
    else if 4 < dailyMax then .error "M-Lab permits at most 4 bandwidth runs per UTC day"
    else if minSpacing < 2160000000000 then
      .error "M-Lab bandwidth minimum spacing must be at least 36m"
    else do
      endpoints.parseHttpUrl "M-Lab Locate URL"
        ((cli.locateUrl <|> file.locateUrl).getD defaultLocateUrl)
      .ok (endpoints.mlabId, 0 < dailyMax && (cli.acceptMlabPolicy || file.acceptMlabPolicy))
  | .direct =>
    if (cli.locateUrl <|> file.locateUrl).isSome then
      .error "M-Lab Locate URL does not apply to the direct provider"
    else if cli.acceptMlabPolicy || file.acceptMlabPolicy then
      .error "M-Lab policy acknowledgement does not apply to direct provider"
    else do
      let providerId ← endpoints.resolveDirect cli.direct file.direct
      .ok (providerId, 0 < dailyMax)

def resolveBandwidth (force : Bool) (cli file : BandwidthOptions) :
    Except String BandwidthConfig := do
  let provider := (cli.provider <|> file.provider).getD .mlab
  let dailyMax := (cli.dailyMax <|> file.dailyMax).getD 4
  let minSpacing ← parseDuration humantime "bandwidth minimum spacing"
    ((cli.minSpacing <|> file.minSpacing).getD "36m")
  let slotJitterPct := (cli.slotJitterPct <|> file.slotJitterPct).getD 50
  if 100 < slotJitterPct then
    .error "bandwidth slot jitter must be between 0 and 100 percent"
  else do
    let wholeTestTimeout ← parseDuration humantime "bandwidth timeout"
      ((cli.wholeTestTimeout <|> file.wholeTestTimeout).getD "55s")
    let shutdownMargin ← parseDuration humantime "bandwidth shutdown margin"
      ((cli.shutdownMargin <|> file.shutdownMargin).getD "15s")
    let trigger ← resolveTrigger humantime cli.trigger file.trigger
    let cooldown ← resolveCooldown humantime cli.cooldown file.cooldown
    let resolved ← resolveProvider endpoints cli file dailyMax minSpacing provider
    let _ ← (if provider = .direct then
      checkDirect humantime dailyMax minSpacing wholeTestTimeout shutdownMargin else .ok ())
    .ok {
      provider
      providerId := resolved.1
      automaticEnabled := resolved.2
      forceLimits := force
      dailyMax
      minSpacing
      slotJitterPct
      wholeTestTimeout
      shutdownMargin
      trigger := trigger.1
      pendingTtl := trigger.2
      cooldown }

end resolve

/-! ### What is accepted -/

section accepted
variable {humantime : Humantime} {endpoints : Endpoints} {force : Bool}
  {cli file : BandwidthOptions} {config : BandwidthConfig}

lemma bind_ok {α β : Type} {x : Except String α} {f : α → Except String β} {b : β}
    (h : x >>= f = .ok b) : ∃ a, x = .ok a ∧ f a = .ok b := by
  cases x with
  | error e => cases h
  | ok a => exact ⟨a, rfl, h⟩

lemma positiveU32_ok {name : String} {value result : UInt32}
    (h : positiveU32 name value = .ok result) : 0 < result.toNat := by
  unfold positiveU32 at h
  split_ifs at h with hzero
  cases h
  exact Nat.pos_of_ne_zero fun h => hzero (UInt32.toNat_inj.mp h)

lemma percentage_ok {name : String} {value result : ℚ}
    (h : percentage name value = .ok result) : 0 ≤ result ∧ result ≤ 100 := by
  unfold percentage at h
  split_ifs at h with hrange
  cases h
  exact hrange

lemma optionalPositive_ok {name : String} {value result : Option ℚ}
    (h : optionalPositive name value = .ok result) : ∀ threshold ∈ result, 0 < threshold := by
  unfold optionalPositive at h
  cases value with
  | none =>
    cases h
    simp
  | some value =>
    dsimp only at h
    split_ifs at h with hpos
    cases h
    simpa using hpos

/-- The health thresholds of an accepted configuration are those the windows rely on. -/
lemma resolveTrigger_ok {cli file : TriggerOptions} {result : HealthConfig × ℕ}
    (h : resolveTrigger humantime cli file = .ok result) : result.1.Accepted := by
  obtain ⟨windowRounds, hwindow, h⟩ := bind_ok h
  obtain ⟨minSamples, hsamples, h⟩ := bind_ok h
  obtain ⟨lossThresholdPct, hloss, h⟩ := bind_ok h
  obtain ⟨rttThresholdMs, hrtt, h⟩ := bind_ok h
  obtain ⟨recoveryLossPct, hrecovery, h⟩ := bind_ok h
  obtain ⟨recoveryRounds, hrounds, h⟩ := bind_ok h
  obtain ⟨pendingTtl, -, h⟩ := bind_ok h
  split_ifs at h with hbelow
  cases h
  exact {
    windowRounds := positiveU32_ok hwindow
    minSamples := positiveU32_ok hsamples
    recoveryRounds := positiveU32_ok hrounds
    lossThreshold := percentage_ok hloss
    recoveryLoss := percentage_ok hrecovery
    recoveryBelow := not_le.mp hbelow
    rttThreshold := optionalPositive_ok hrtt }

lemma resolveCooldown_ok {cli file : CooldownOptions} {result : CooldownConfig}
    (h : resolveCooldown humantime cli file = .ok result) : result.initial ≤ result.max := by
  obtain ⟨initial, -, h⟩ := bind_ok h
  obtain ⟨max, -, h⟩ := bind_ok h
  split_ifs at h with hlt
  cases h
  exact not_lt.mp hlt

/-- A direct provider's spacing leaves room for a whole test, and its cap is at most the number of
whole-second spacings in a day. -/
lemma checkDirect_ok {dailyMax : UInt32} {minSpacing wholeTestTimeout shutdownMargin : ℕ}
    (h : checkDirect humantime dailyMax minSpacing wholeTestTimeout shutdownMargin = .ok ()) :
    wholeTestTimeout + shutdownMargin ≤ minSpacing ∧ 60000000000 ≤ minSpacing ∧
      dailyMax.toNat ≤ 86400 / (minSpacing / 1000000000) := by
  obtain ⟨minimum, hminimum, h⟩ := bind_ok h
  unfold directMinimum at hminimum
  split_ifs at hminimum h with hfits hlt hcap
  cases hminimum
  omega

lemma resolveProvider_ok {dailyMax : UInt32} {minSpacing : ℕ} {result : ProviderId × Bool}
    (h : resolveProvider endpoints cli file dailyMax minSpacing .mlab = .ok result) :
    2160000000000 ≤ minSpacing := by
  rw [resolveProvider] at h
  split_ifs at h with hgiven hcap hspacing
  exact not_lt.mp hspacing

/-- What an accepted configuration was checked for. -/
lemma resolveBandwidth_ok
    (h : resolveBandwidth humantime endpoints force cli file = .ok config) :
    config.forceLimits = force ∧ config.slotJitterPct ≤ 100 ∧ config.trigger.Accepted ∧
      config.cooldown.initial ≤ config.cooldown.max ∧
      match config.provider with
      | .mlab => 2160000000000 ≤ config.minSpacing
      | .direct => config.wholeTestTimeout + config.shutdownMargin ≤ config.minSpacing ∧
        60000000000 ≤ config.minSpacing ∧
        config.dailyMax.toNat ≤ 86400 / (config.minSpacing / 1000000000) := by
  obtain ⟨minSpacing, -, h⟩ := bind_ok h
  dsimp only at h
  by_cases hjitter : 100 < (cli.slotJitterPct <|> file.slotJitterPct).getD 50
  · rw [if_pos hjitter] at h
    cases h
  rw [if_neg hjitter] at h
  obtain ⟨wholeTestTimeout, -, h⟩ := bind_ok h
  obtain ⟨shutdownMargin, -, h⟩ := bind_ok h
  obtain ⟨trigger, htrigger, h⟩ := bind_ok h
  obtain ⟨cooldown, hcooldown, h⟩ := bind_ok h
  obtain ⟨resolved, hresolved, h⟩ := bind_ok h
  obtain ⟨u, hcheck, h⟩ := bind_ok h
  cases h
  refine ⟨rfl, UInt8.not_lt.mp hjitter, resolveTrigger_ok htrigger, resolveCooldown_ok hcooldown,
    ?_⟩
  dsimp only
  cases hprovider : (cli.provider <|> file.provider).getD .mlab with
  | mlab =>
    rw [hprovider] at hresolved
    exact resolveProvider_ok hresolved
  | direct =>
    rw [if_pos hprovider] at hcheck
    exact checkDirect_ok hcheck

/-- **Accepted configurations** satisfy what the scheduler and the health windows rely on. -/
theorem resolveBandwidth_accepted
    (h : resolveBandwidth humantime endpoints force cli file = .ok config) : config.Accepted := by
  obtain ⟨-, hjitter, htrigger, hcooldown, hspacing⟩ := resolveBandwidth_ok h
  refine ⟨?_, hjitter, htrigger, hcooldown⟩
  split at hspacing
  · omega
  · exact hspacing.2.1

end accepted

end Netband.Settings
