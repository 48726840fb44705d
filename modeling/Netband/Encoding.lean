import Netband.Json
import Netband.Persistence

/-!
The texts of the recovery files: the JSON of the serialized types with the field names of the
source, timestamps in RFC 3339, and SHA-256 digests.
-/

namespace Netband.Encoding

open Netband.Time Netband.Model Netband.State Netband.Lines Netband.Recovery Netband.Json

/-! ### Timestamps determine their instant -/

lemma append_cons_inj' {α : Type} {c : α} {a b r s : List α} (hr : c ∉ r) (hs : c ∉ s)
    (h : a ++ c :: r = b ++ c :: s) : a = b ∧ r = s := by
  have hrev := congrArg List.reverse h
  simp only [List.reverse_append, List.reverse_cons, List.append_assoc, List.singleton_append]
    at hrev
  obtain ⟨hrs, hab⟩ := append_cons_inj (by simpa using hr) (by simpa using hs) hrev
  exact ⟨List.reverse_injective hab, List.reverse_injective hrs⟩

lemma toList_pushn (c : Char) (k : ℕ) : ("".pushn c k).toList = List.replicate k c := by
  induction k with
  | zero => rfl
  | succ k ih =>
    have hpush : "".pushn c (k + 1) = ("".pushn c k).push c := rfl
    rw [hpush, String.toList_push, ih, List.replicate_succ']

lemma toList_padded (width n : ℕ) : (padded width n).toList =
    List.replicate (width - (toString n).length) '0' ++ Nat.toDigits 10 n := by
  simp [padded, toList_pushn]

lemma padded_injective (width : ℕ) : Function.Injective (padded width) := by
  intro n m h
  have hval : ∀ k, Nat.ofDigitChars 10 (padded width k).toList 0 = k := by
    intro k
    rw [toList_padded, Nat.ofDigitChars_append, Nat.ofDigitChars_replicate_zero, Nat.mul_zero,
      Nat.ofDigitChars_ten_toDigits]
  rw [← hval n, h, hval m]

lemma isDigit_padded {width n : ℕ} {c : Char} (h : c ∈ (padded width n).toList) :
    c.isDigit = true := by
  rw [toList_padded, List.mem_append] at h
  rcases h with h | h
  · rw [(List.mem_replicate.mp h).2]
    decide
  · exact Nat.isDigit_of_mem_toDigits (by omega) (by omega) h

lemma notMem_padded {width n : ℕ} {c : Char} (hc : c.isDigit = false) :
    c ∉ (padded width n).toList := fun h => by simp [isDigit_padded h] at hc

lemma yearText_head (y : ℤ) : ∃ sign : List Char, (yearText y).toList =
    sign ++ (padded 4 y.natAbs).toList ∧ (∀ c ∈ sign, c = '+' ∨ c = '-') ∧
    (0 ≤ y ∧ sign ≠ ['-'] ∨ y < 0 ∧ sign = ['-']) := by
  unfold yearText
  split_ifs with h1 h2
  · refine ⟨[], ?_, by simp, .inl ⟨h1.1, by simp⟩⟩
    rw [show y.natAbs = y.toNat by omega, List.nil_append]
  · exact ⟨['+'], by simp, by simp, .inl ⟨h2, by simp⟩⟩
  · exact ⟨['-'], by simp, by simp, .inr ⟨by omega, rfl⟩⟩

lemma sign_append_inj {s t a b : List Char} (hs : ∀ c ∈ s, c = '+' ∨ c = '-')
    (ht : ∀ c ∈ t, c = '+' ∨ c = '-') (ha : ∀ c ∈ a, c.isDigit = true)
    (hb : ∀ c ∈ b, c.isDigit = true) (h : s ++ a = t ++ b) : s = t ∧ a = b := by
  have hsign : ∀ c : Char, c = '+' ∨ c = '-' → c.isDigit = false := by
    rintro c (rfl | rfl) <;> decide
  have hdrop : ∀ {s a : List Char}, (∀ c ∈ s, c = '+' ∨ c = '-') → (∀ c ∈ a, c.isDigit = true) →
      (s ++ a).filter Char.isDigit = a := by
    intro s a hs ha
    rw [List.filter_append, List.filter_eq_nil_iff.mpr fun c hc => by simp [hsign c (hs c hc)],
      List.filter_eq_self.mpr ha, List.nil_append]
  have hab : a = b := by rw [← hdrop hs ha, h, hdrop ht hb]
  exact ⟨List.append_cancel_right (hab ▸ h), hab⟩

lemma yearText_injective : Function.Injective yearText := by
  intro x y h
  obtain ⟨s, hx, hs, hxs⟩ := yearText_head x
  obtain ⟨t, hy, ht, hyt⟩ := yearText_head y
  rw [h, hy] at hx
  obtain ⟨hst, habs⟩ := sign_append_inj ht hs (fun c => isDigit_padded) (fun c => isDigit_padded) hx
  have habs := padded_injective 4 (String.toList_injective habs)
  rcases hxs with ⟨hx0, hxs⟩ | ⟨hx0, hxs⟩ <;> rcases hyt with ⟨hy0, hyt⟩ | ⟨hy0, hyt⟩
  · omega
  · exact absurd (hst ▸ hyt) hxs
  · exact absurd (hst ▸ hxs) hyt
  · omega

lemma monthDay_pos (ls : List ℕ) (n : ℕ) : 0 < (monthDay ls n).1 := by
  cases ls with
  | nil => simp [monthDay]
  | cons l ls =>
    rw [monthDay]
    split_ifs <;> simp

lemma monthDay_injective (ls : List ℕ) : Function.Injective (monthDay ls) := by
  induction ls with
  | nil =>
    intro n m h
    simpa [monthDay] using h
  | cons l ls ih =>
    intro n m h
    have hn := monthDay_pos ls (n - l)
    have hm := monthDay_pos ls (m - l)
    simp only [monthDay] at h
    split_ifs at h with h1 h2 h2
    · simpa using h
    · simp only [Prod.mk.injEq] at h
      omega
    · simp only [Prod.mk.injEq] at h
      omega
    · simp only [Prod.mk.injEq, Nat.add_right_cancel_iff] at h
      have := ih (Prod.ext h.1 h.2)
      omega

lemma daysBeforeYear_yearOf (d : ℤ) : daysBeforeYear (yearOf d) ≤ d := by
  unfold yearOf
  dsimp only
  split_ifs with h1 h2 h3
  · exact h1
  · exact h2
  · exact h3
  · unfold daysBeforeYear
    omega

lemma toList_dayText (d : ℤ) : ∃ m k,
    monthDay (monthLengths (isLeap (yearOf d))) (d - daysBeforeYear (yearOf d)).toNat = (m, k) ∧
    (dayText d).toList = ((yearText (yearOf d)).toList ++ '-' :: (padded 2 m).toList) ++
      '-' :: (padded 2 k).toList := by
  rcases hmd : monthDay (monthLengths (isLeap (yearOf d))) (d - daysBeforeYear (yearOf d)).toNat
    with ⟨m, k⟩
  refine ⟨m, k, rfl, ?_⟩
  simp only [dayText, hmd, String.toList_append]
  simp

lemma dayText_injective : Function.Injective dayText := by
  intro d e h
  obtain ⟨m, k, hd, htext⟩ := toList_dayText d
  obtain ⟨m', k', he, htext'⟩ := toList_dayText e
  rw [h, htext'] at htext
  obtain ⟨h, hday⟩ :=
    append_cons_inj' (notMem_padded (by decide)) (notMem_padded (by decide)) htext
  obtain ⟨hyear, hmonth⟩ :=
    append_cons_inj' (notMem_padded (by decide)) (notMem_padded (by decide)) h
  have hyear := yearText_injective (String.toList_injective hyear)
  have hmonth := padded_injective 2 (String.toList_injective hmonth)
  have hday := padded_injective 2 (String.toList_injective hday)
  have hdy := daysBeforeYear_yearOf d
  have hey := daysBeforeYear_yearOf e
  rw [hyear] at he hey
  rw [hmonth, hday, ← hd] at he
  have hn := monthDay_injective _ he
  omega

lemma length_padded_two : ∀ n < 100, (padded 2 n).toList.length = 2 := by decide +kernel

lemma fractionText_injective {n m : ℕ} (hn : n < 1000000000) (hm : m < 1000000000)
    (h : fractionText n = fractionText m) : n = m := by
  have hlen : ∀ width k, (padded width k).toList.length =
      max width (toString k).length := by
    intro width k
    rw [toList_padded, List.length_append, List.length_replicate,
      Nat.toString_eq_ofList_toDigits, String.length_ofList]
    omega
  have hsmall : ∀ width k, 0 < width → k < 10 ^ width → (toString k).length ≤ width := by
    intro width k hw hk
    rw [Nat.toString_eq_ofList_toDigits, String.length_ofList]
    exact (Nat.length_toDigits_le_iff (by omega) hw).mpr hk
  have hdot : ∀ width k, ("." ++ padded width k).toList = '.' :: (padded width k).toList := by
    simp
  -- the four lengths tell the cases apart
  have hlength : ∀ k < 1000000000, (fractionText k).toList.length =
      if k = 0 then 0 else if k % 1000000 = 0 then 4 else if k % 1000 = 0 then 7 else 10 := by
    intro k hk
    unfold fractionText
    split_ifs with h1 h2 h3
    · rfl
    · have := hsmall 3 (k / 1000000) (by omega) (by omega)
      rw [hdot, List.length_cons, hlen]
      omega
    · have := hsmall 6 (k / 1000) (by omega) (by omega)
      rw [hdot, List.length_cons, hlen]
      omega
    · have := hsmall 9 k (by omega) (by omega)
      rw [hdot, List.length_cons, hlen]
      omega
  have hl := congrArg (fun s : String => s.toList.length) h
  simp only [hlength n hn, hlength m hm] at hl
  have hcancel : ∀ width a b, "." ++ padded width a = "." ++ padded width b → a = b := by
    intro width a b he
    have he := congrArg String.toList he
    rw [hdot, hdot] at he
    exact padded_injective width (String.toList_injective (List.cons.inj he).2)
  unfold fractionText at h
  split_ifs at h hl with h1 h2 h3 h4 h5 h6 h7 h8
  all_goals first
    | omega
    | have := hcancel _ _ _ h
      omega

/-- The nanoseconds of a day. -/
def nanosOf (t : ℤ) : ℕ := (t - dayStart (dateNaive t)).toNat

lemma nanosOf_spec (t : ℤ) :
    nanosOf t < 86400000000000 ∧ t = dayStart (dateNaive t) + nanosOf t := by
  simp only [nanosOf, dayStart, dateNaive, dayLength, daySeconds, second]
  omega

lemma toList_timeText (t : ℤ) : (timeText t).toList = (dayText (dateNaive t)).toList ++
    'T' :: ((padded 2 (nanosOf t / 1000000000 / 3600)).toList ++
    ':' :: ((padded 2 (nanosOf t / 1000000000 / 60 % 60)).toList ++
    ':' :: ((padded 2 (nanosOf t / 1000000000 % 60)).toList ++
      (fractionText (nanosOf t % 1000000000)).toList))) := by
  simp only [timeText, String.toList_append]
  change _ = _ ++ 'T' :: ((padded 2 ((t - dayStart (dateNaive t)).toNat / 1000000000 / 3600)).toList
    ++ _)
  rw [nanosOf]
  generalize (t - dayStart (dateNaive t)).toNat = n
  generalize dayText (dateNaive t) = day
  simp

lemma notMem_dayText (d : ℤ) : 'T' ∉ (dayText d).toList := by
  intro hd
  obtain ⟨m, k, -, htext⟩ := toList_dayText d
  obtain ⟨sign, hy, hs, -⟩ := yearText_head (yearOf d)
  have hpad : ∀ width k, 'T' ∉ (padded width k).toList := fun width k => notMem_padded (by decide)
  rw [htext, hy] at hd
  simp only [List.mem_append, List.mem_cons, hpad, or_false] at hd
  rcases hd with (hd | hd) | hd
  · rcases hs _ hd with h | h <;> simp at h
  · simp at hd
  · simp at hd

lemma timeText_injective : Function.Injective timeText := by
  intro t u h
  have h := congrArg String.toList h
  rw [toList_timeText, toList_timeText] at h
  obtain ⟨hday, h⟩ := append_cons_inj (notMem_dayText _) (notMem_dayText _) h
  obtain ⟨hhour, h⟩ := append_cons_inj (notMem_padded (by decide)) (notMem_padded (by decide)) h
  obtain ⟨hminute, h⟩ := append_cons_inj (notMem_padded (by decide)) (notMem_padded (by decide)) h
  obtain ⟨hsecond, hfraction⟩ := List.append_inj h (by
    rw [length_padded_two _ (by omega), length_padded_two _ (by omega)])
  have hday := dayText_injective (String.toList_injective hday)
  have hhour := padded_injective 2 (String.toList_injective hhour)
  have hminute := padded_injective 2 (String.toList_injective hminute)
  have hsecond := padded_injective 2 (String.toList_injective hsecond)
  have hfraction := fractionText_injective (Nat.mod_lt _ (by omega)) (Nat.mod_lt _ (by omega))
    (String.toList_injective hfraction)
  obtain ⟨ht, htt⟩ := nanosOf_spec t
  obtain ⟨hu, huu⟩ := nanosOf_spec u
  rw [htt, huu, hday]
  omega

/-! ### Serialized types -/

open Printer

def date : Printer ℤ := str.comap dayText dayText_injective

/-- `DateTime<Utc>`. -/
def instant : Printer ℤ := str.comap (fun t => timeText t ++ "Z") fun _ _ h =>
  timeText_injective (String.append_left_inj "Z" |>.mp h)

def reasonText : TriggerReason → String
  | .scheduled => "scheduled"
  | .pingLoss => "ping_loss"
  | .pingRtt => "ping_rtt"
  | .manual => "manual"

def triggerReason : Printer TriggerReason := str.comap reasonText (by
  intro a b h
  cases a <;> cases b <;> first | rfl | exact absurd h (by decide))

def rng : Printer UInt64 := nat.comap UInt64.toNat fun _ _ h => UInt64.toNat_inj.mp h

lemma instant_head (t : ℤ) : 'n' ∉ (instant.text t).head? := by simp [instant, str, comap]

lemma str_head (t : String) : 'n' ∉ (str.text t).head? := by simp [str]

/-- The JSON text of an object does not begin like `null`. -/
lemma object_head {α β : Type} (p : Printer α) (f : β → α) (hf : Function.Injective f) (b : β) :
    'n' ∉ ((p.object.comap f hf).text b).head? := by simp [object, bracket, comap]

def optionalInstant : Printer (Option ℤ) := instant.option instant_head

def optionalString : Printer (Option String) := str.option str_head

def deferredOpportunity : Printer DeferredOpportunity :=
  ((optionalInstant.field "scheduled_at_utc").and <|
    (triggerReason.field "reason").and <|
    (optionalString.field "interface").and <|
    (instant.field "created_at_utc").and <|
    (instant.field "expires_at_utc").and <|
    nat.field "rate_limit_attempts").object.comap
    (fun d => (d.scheduledAtUtc, d.reason, d.interface, d.createdAtUtc, d.expiresAtUtc,
      d.rateLimitAttempts)) (by
    rintro ⟨⟩ ⟨⟩ h
    simp only [Prod.mk.injEq] at h
    simp [h])

def pendingTrigger : Printer PendingTrigger :=
  ((triggerReason.field "reason").and <|
    (instant.field "created_at_utc").and <|
    instant.field "expires_at_utc").object.comap
    (fun t => (t.reason, t.createdAtUtc, t.expiresAtUtc)) (by
    rintro ⟨⟩ ⟨⟩ h
    simp only [Prod.mk.injEq] at h
    simp [h])

def interfaceTriggerState : Printer InterfaceTriggerState :=
  (((pendingTrigger.option (object_head _ _ _)).field "pending").and <|
    bool.field "latched").object.comap
    (fun t => (t.pending, t.latched)) (by
    rintro ⟨⟩ ⟨⟩ h
    simp only [Prod.mk.injEq] at h
    simp [h])

lemma toList_injective {α : Type} :
    Function.Injective (Std.ExtTreeMap.toList : BTreeMap String α → List (String × α)) :=
  fun _ _ h => Std.ExtTreeMap.ext_toList (h ▸ .refl _)

/-- A `BTreeMap`, in the order of its keys. -/
def btreeMap {α : Type} (p : Printer α) : Printer (BTreeMap String α) :=
  p.entries.comap Std.ExtTreeMap.toList toList_injective

def providerState : Printer ProviderState :=
  ((date.field "day_utc").and <|
    (instant.array.field "slots").and <|
    (instant.array.field "runs").and <|
    (optionalInstant.field "last_started_at_utc").and <|
    (optionalInstant.field "cooldown_until_utc").and <|
    (nat.field "backoff_step").and <|
    ((deferredOpportunity.option (object_head _ _ _)).field "deferred").and <|
    ((btreeMap interfaceTriggerState).field "interface_triggers").and <|
    (nat.field "policy_daily_max").and <|
    (nat.field "policy_min_spacing_ms").and <|
    (nat.field "policy_slot_jitter_pct").and <|
    (rng.field "rng_state").and <|
    instant.field "last_observed_utc").object.comap
    (fun s => (s.dayUtc, s.slots, s.runs, s.lastStartedAtUtc, s.cooldownUntilUtc, s.backoffStep,
      s.deferred, s.interfaceTriggers, s.policyDailyMax, s.policyMinSpacingMs,
      s.policySlotJitterPct, s.rngState, s.lastObservedUtc)) (by
    rintro ⟨⟩ ⟨⟩ h
    simp only [Prod.mk.injEq] at h
    simp [h])

def checkpoint : Printer Checkpoint :=
  ((nat.field "version").and <|
    (str.field "installation").and <|
    (nat.field "sequence").and <|
    str.field "digest").object.comap
    (fun c => (c.version, c.installation, c.sequence, c.digest)) (by
    rintro ⟨⟩ ⟨⟩ h
    simp only [Prod.mk.injEq] at h
    simp [h])

def schedulerStore : Printer SchedulerStore :=
  ((nat.field "schema_version").and <|
    ((btreeMap providerState).field "providers").and <|
    (checkpoint.option (object_head _ _ _)).field "checkpoint").object.comap
    (fun s => (s.schemaVersion, s.providers, s.checkpoint)) (by
    rintro ⟨⟩ ⟨⟩ h
    simp only [Prod.mk.injEq] at h
    simp [h])

def header : Printer Header :=
  ((nat.field "version").and <| str.field "installation").object.comap
    (fun h => (h.version, h.installation)) (by
    rintro ⟨⟩ ⟨⟩ h
    simp only [Prod.mk.injEq] at h
    simp [h])

def record : Printer Record :=
  ((nat.field "sequence").and <|
    (str.field "previous_digest").and <|
    (schedulerStore.field "state").and <|
    str.field "digest").object.comap
    (fun r => (r.sequence, r.previousDigest, r.state, r.digest)) (by
    rintro ⟨⟩ ⟨⟩ h
    simp only [Prod.mk.injEq] at h
    simp [h])

/-- The tuple that a record's digest is taken of. -/
def body : Printer (ℕ × String × SchedulerStore) :=
  (nat.and <| str.and schedulerStore).bracket '[' ']' opening_array closing_array

/-! ### SHA-256 -/

def sha256Constants : List UInt32 := [
  0x428a2f98, 0x71374491, 0xb5c0fbcf, 0xe9b5dba5, 0x3956c25b, 0x59f111f1, 0x923f82a4, 0xab1c5ed5,
  0xd807aa98, 0x12835b01, 0x243185be, 0x550c7dc3, 0x72be5d74, 0x80deb1fe, 0x9bdc06a7, 0xc19bf174,
  0xe49b69c1, 0xefbe4786, 0x0fc19dc6, 0x240ca1cc, 0x2de92c6f, 0x4a7484aa, 0x5cb0a9dc, 0x76f988da,
  0x983e5152, 0xa831c66d, 0xb00327c8, 0xbf597fc7, 0xc6e00bf3, 0xd5a79147, 0x06ca6351, 0x14292967,
  0x27b70a85, 0x2e1b2138, 0x4d2c6dfc, 0x53380d13, 0x650a7354, 0x766a0abb, 0x81c2c92e, 0x92722c85,
  0xa2bfe8a1, 0xa81a664b, 0xc24b8b70, 0xc76c51a3, 0xd192e819, 0xd6990624, 0xf40e3585, 0x106aa070,
  0x19a4c116, 0x1e376c08, 0x2748774c, 0x34b0bcb5, 0x391c0cb3, 0x4ed8aa4a, 0x5b9cca4f, 0x682e6ff3,
  0x748f82ee, 0x78a5636f, 0x84c87814, 0x8cc70208, 0x90befffa, 0xa4506ceb, 0xbef9a3f7, 0xc67178f2]

structure Sha256 where
  a : UInt32 := 0x6a09e667
  b : UInt32 := 0xbb67ae85
  c : UInt32 := 0x3c6ef372
  d : UInt32 := 0xa54ff53a
  e : UInt32 := 0x510e527f
  f : UInt32 := 0x9b05688c
  g : UInt32 := 0x1f83d9ab
  h : UInt32 := 0x5be0cd19

def rotateRight (x n : UInt32) : UInt32 := (x >>> n) ||| (x <<< (32 - n))

/-- A 32-bit word of four bytes, the highest first. -/
def wordOf (bytes : Bytes) : UInt32 := bytes.foldl (fun w b => (w <<< 8) ||| b.toUInt32) 0

/-- The sixteen words of a block and those computed from them. -/
def schedule (block : Bytes) : List UInt32 :=
  (List.range 48).foldl (fun w _ =>
    let x := w.getD (w.length - 15) 0
    let y := w.getD (w.length - 2) 0
    let s0 := rotateRight x 7 ^^^ rotateRight x 18 ^^^ (x >>> 3)
    let s1 := rotateRight y 17 ^^^ rotateRight y 19 ^^^ (y >>> 10)
    w ++ [w.getD (w.length - 16) 0 + s0 + w.getD (w.length - 7) 0 + s1])
    ((List.range 16).map fun i => wordOf ((block.drop (4 * i)).take 4))

def Sha256.round (s : Sha256) (kw : UInt32 × UInt32) : Sha256 :=
  let s1 := rotateRight s.e 6 ^^^ rotateRight s.e 11 ^^^ rotateRight s.e 25
  let ch := (s.e &&& s.f) ^^^ (~~~s.e &&& s.g)
  let t1 := s.h + s1 + ch + kw.1 + kw.2
  let s0 := rotateRight s.a 2 ^^^ rotateRight s.a 13 ^^^ rotateRight s.a 22
  let maj := (s.a &&& s.b) ^^^ (s.a &&& s.c) ^^^ (s.b &&& s.c)
  { a := t1 + (s0 + maj), b := s.a, c := s.b, d := s.c, e := s.d + t1, f := s.e, g := s.f,
    h := s.g }

def Sha256.block (s : Sha256) (block : Bytes) : Sha256 :=
  let t := (sha256Constants.zip (schedule block)).foldl Sha256.round s
  { a := s.a + t.a, b := s.b + t.b, c := s.c + t.c, d := s.d + t.d, e := s.e + t.e, f := s.f + t.f,
    g := s.g + t.g, h := s.h + t.h }

/-- A message with its padding and its length in bits. -/
def padMessage (m : Bytes) : Bytes :=
  let zeros := (119 - m.length % 64) % 64
  m ++ 0x80 :: List.replicate zeros 0 ++
    (List.range 8).map fun i => UInt8.ofNat (8 * m.length / 256 ^ (7 - i))

def Sha256.bytes (s : Sha256) : Bytes :=
  ([s.a, s.b, s.c, s.d, s.e, s.f, s.g, s.h] : List UInt32).flatMap fun w : UInt32 =>
    [(w >>> 24).toUInt8, (w >>> 16).toUInt8, (w >>> 8).toUInt8, w.toUInt8]

def sha256 (m : Bytes) : Bytes :=
  let padded := padMessage m
  ((List.range (padded.length / 64)).foldl
    (fun s i => s.block ((padded.drop (64 * i)).take 64)) ({} : Sha256)).bytes

/-! ### The codecs -/

open Classical in
/-- Read back the texts that a printer writes. -/
noncomputable def codec {α : Type} (p : Printer α) : Codec α where
  encode a := utf8 (p.text a)
  decode bytes := if h : ∃ a, utf8 (p.text a) = bytes then .ok h.choose
    else .error "expected value at line 1 column 1"
  decode_encode a := by
    have h : ∃ b, utf8 (p.text b) = utf8 (p.text a) := ⟨a, rfl⟩
    rw [dif_pos h, p.text_injective (utf8_injective h.choose_spec)]
  encode_ne_nil a h := by
    have hnil : p.text a = [] := utf8_injective (h.trans rfl)
    exact p.text_ne_nil a hnil
  no_newline a := newline_notMem_utf8 (p.oneLine a)

/-- The formats of the repository. -/
noncomputable def formats : Serde where
  header := codec header
  record := codec record
  checkpoint := codec checkpoint
  store := codec schedulerStore
  body x := utf8 (body.text x)
  digest bytes := hex (sha256 bytes)

end Netband.Encoding
