import Netband.Attempt

/-!
Failover between candidates.

What a test does is a list of trials, each of one candidate in one direction. A later candidate is
tried only after the download of the one before was passed over, and nothing is tried after a
failure that is about the whole provider. The progress of the test is what these trials say, at
every point where it waits and when it ends.
-/

namespace Netband.Bandwidth

open Netband.Time Netband.Model Netband.Effects Netband.Upload Saving

/-! ### Trials -/

/-- What was done with a candidate in one direction. -/
structure Trial where
  candidate : EndpointCandidate
  direction : RequestDirection
  contacts : List Contact := []
  failures : List RequestFailure := []
  measurement : Option DirectionMeasurement := none

/-- No failure is about the whole provider. -/
def Calm (failures : List RequestFailure) : Prop :=
  ∀ f ∈ failures, f.disposition ≠ .providerWide

/-- The last failure, and no other, is about the whole provider, and there is no measurement. -/
def Trial.Blocked (t : Trial) : Prop :=
  t.measurement = none ∧
    ∃ before f, t.failures = before ++ [f] ∧ Calm before ∧ f.disposition = .providerWide

/-- The candidate is passed over: its download has no measurement, and it asks for the next. -/
def Trial.Skipped (t : Trial) : Prop :=
  t.direction = .download ∧ t.measurement = none ∧
    ∃ f ∈ t.failures.getLast?, f.disposition = .tryNextTarget

/-- A trial that is over has a measurement or says why it has none. -/
def Trial.Accounted (t : Trial) : Prop := t.measurement = none → t.failures ≠ []

lemma Trial.Skipped.accounted {t : Trial} (h : t.Skipped) : t.Accounted := by
  obtain ⟨-, -, f, hf, -⟩ := h
  exact fun _ => List.ne_nil_of_mem (List.mem_of_getLast? hf)

/-- The last call was a connection, under the identifier and to the address. -/
def Trial.Reached (t : Trial) (requestId : RequestId) (remoteIp : IpAddr) : Prop :=
  ∃ x ∈ t.contacts.getLast?, x.requestId = requestId ∧ ∃ remote, x.call = .connect remote ∧
    remote.ip = remoteIp

/-- A trial speaks of its own candidate and direction only, and its measurement was made against
the server that was reached last. -/
structure Trial.Sound (t : Trial) : Prop where
  contacts : ∀ x ∈ t.contacts, x.server = t.candidate ∧ x.direction = t.direction
  failures : ∀ f ∈ t.failures, f.direction = some t.direction ∧
    f.serverName = some t.candidate.logicalServer
  measurement : ∀ m ∈ t.measurement, t.Reached m.requestId m.remoteIp

/-- The trials of a test over candidates, so far. -/
inductive Course : List EndpointCandidate → List Trial → Prop
  | begun (candidates : List EndpointCandidate) : Course candidates []
  | download (candidates : List EndpointCandidate) (t : Trial) (ht : t.direction = .download) :
    Course (t.candidate :: candidates) [t]
  | upload (candidates : List EndpointCandidate) (t u : Trial) (ht : t.direction = .download)
    (hcalm : Calm t.failures) (hover : t.Accounted) (hskipped : ¬t.Skipped)
    (hcandidate : u.candidate = t.candidate) (hu : u.direction = .upload) :
    Course (t.candidate :: candidates) [t, u]
  | skip (candidates : List EndpointCandidate) (t : Trial) (trials : List Trial)
    (hcalm : Calm t.failures) (hskipped : t.Skipped) (h : Course candidates trials) :
    Course (t.candidate :: candidates) (t :: trials)

/-- The measurement that the trials retain in a direction. -/
def retained (direction : RequestDirection) (trials : List Trial) : Option DirectionMeasurement :=
  trials.findSome? fun t => if t.direction = direction then t.measurement else none

/-- The trials tell what was called, what failed and what was measured since a state. -/
structure Tells (a : State) (trials : List Trial) (s : State) : Prop where
  contacts : s.contacts = a.contacts ++ trials.flatMap Trial.contacts
  failures : s.progress.failures = a.progress.failures ++ trials.flatMap Trial.failures
  admission : s.admission = a.admission
  download : s.progress.download = retained .download trials
  upload : s.progress.upload = retained .upload trials
  sound : ∀ t ∈ trials, t.Sound
  -- every trial goes under identifiers of its own
  requestIds : trials.Pairwise fun t u => ∀ x ∈ t.contacts, ∀ y ∈ u.contacts,
    x.requestId < y.requestId
  made : ∀ t ∈ trials, ∀ x ∈ t.contacts, x.requestId < s.requestIds

/-- The server that the progress names is that of the last trial. -/
def Named (trials : List Trial) (s : State) : Prop :=
  ∀ t ∈ trials.getLast?, s.progress.serverName = some t.candidate.logicalServer

/-- Where a test waits: it is in the middle of its last trial. -/
def Waiting (a : State) (candidates : List EndpointCandidate) (s : State) : Prop :=
  ∃ trials, Course candidates trials ∧ Tells a trials s ∧ Named trials s ∧
    ∀ t ∈ trials, Calm t.failures

/-- What a trial has done since a state. -/
structure Tried (b : State) (t : Trial) (s : State) : Prop where
  contacts : s.contacts = b.contacts ++ t.contacts
  failures : s.progress.failures = b.progress.failures ++ t.failures
  admission : s.admission = b.admission
  serverName : s.progress.serverName = b.progress.serverName
  requestIds : b.requestIds ≤ s.requestIds
  sound : t.Sound
  made : ∀ x ∈ t.contacts, b.requestIds ≤ x.requestId ∧ x.requestId < s.requestIds

/-- A trial is under way with a request. -/
structure Trying (b : State) (t : Trial) (r : RequestId) (s : State) : Prop extends
    Tried b t s where
  download : s.progress.download = b.progress.download
  upload : s.progress.upload =
    if t.direction = .upload then t.measurement else b.progress.upload
  requestId : s.progress.active.requestId = r
  direction : s.progress.active.direction = some t.direction
  server : s.progress.active.serverName = some t.candidate.logicalServer
  current : b.requestIds ≤ r ∧ r < s.requestIds

/-- Only clocks, identifiers, the stage, addresses and the phase may differ. -/
structure State.Stays (s s' : State) : Prop where
  contacts : s'.contacts = s.contacts
  admission : s'.admission = s.admission
  requestIds : s.requestIds ≤ s'.requestIds
  failures : s'.progress.failures = s.progress.failures
  serverName : s'.progress.serverName = s.progress.serverName
  download : s'.progress.download = s.progress.download
  upload : s'.progress.upload = s.progress.upload
  requestId : s'.progress.active.requestId = s.progress.active.requestId
  direction : s'.progress.active.direction = s.progress.active.direction
  server : s'.progress.active.serverName = s.progress.active.serverName

instance : IsPreorder State State.Stays where
  refl _ := ⟨rfl, rfl, le_rfl, rfl, rfl, rfl, rfl, rfl, rfl, rfl⟩
  trans _ _ _ h h' := {
    contacts := h'.contacts.trans h.contacts
    admission := h'.admission.trans h.admission
    requestIds := h.requestIds.trans h'.requestIds
    failures := h'.failures.trans h.failures
    serverName := h'.serverName.trans h.serverName
    download := h'.download.trans h.download
    upload := h'.upload.trans h.upload
    requestId := h'.requestId.trans h.requestId
    direction := h'.direction.trans h.direction
    server := h'.server.trans h.server }

lemma State.Idle.stays {s s' : State} (h : s.Idle s') : s.Stays s' where
  contacts := h.quiet.contacts
  admission := h.quiet.admission
  requestIds := h.quiet.requestIds
  failures := by rw [h.progress]
  serverName := by rw [h.progress]
  download := by rw [h.progress]
  upload := by rw [h.progress]
  requestId := by rw [h.progress]
  direction := by rw [h.progress]
  server := by rw [h.progress]

section steps
variable {o : Outside} {b s : State} {t : Trial} {r : RequestId} {α β : Type} {P : α → Prop}
  {R : State → Prop} {Q : α → State → Prop}

lemma Trying.stays {s' : State} (h : Trying b t r s) (hs : s.Stays s') : Trying b t r s' where
  contacts := hs.contacts.trans h.contacts
  failures := hs.failures.trans h.failures
  admission := hs.admission.trans h.admission
  serverName := hs.serverName.trans h.serverName
  requestIds := h.requestIds.trans hs.requestIds
  sound := h.sound
  made x hx := ⟨(h.made x hx).1, (h.made x hx).2.trans_le hs.requestIds⟩
  download := hs.download.trans h.download
  upload := hs.upload.trans h.upload
  requestId := hs.requestId.trans h.requestId
  direction := hs.direction.trans h.direction
  server := hs.server.trans h.server
  current := ⟨h.current.1, h.current.2.trans_le hs.requestIds⟩

lemma Within.stays {c : Op α} (h : Within State.Idle P c) : Within State.Stays P c :=
  h.mono (fun _ _ => State.Idle.stays) fun _ => id

/-- A trial waits, and no failure of it is about the whole provider. -/
def Underway (b : State) (c : EndpointCandidate) (d : RequestDirection) (x : State) : Prop :=
  ∃ t r, t.candidate = c ∧ t.direction = d ∧ (d = .download → t.measurement = none) ∧
    Calm t.failures ∧ Trying b t r x

variable {c : EndpointCandidate} {d : RequestDirection} {cs : List Contact}
  {fs : List RequestFailure} {m m' : Option DirectionMeasurement}

/-- A resolver answers with addresses or with an error. -/
def Outside.Resolves (o : Outside) : Prop :=
  ∀ n host port, o.resolve n host port ≠ some (.ok [])

lemma resolveAddresses_ne_nil {parseIp : String → Option IpAddr}
    {lookupHost : String → ℕ → Except String (List SocketAddr)} {host : String} {port : ℕ} :
    resolveAddresses parseIp lookupHost host port ≠ .ok [] := by
  unfold resolveAddresses
  split
  · simp
  · split
    · simp
    · dsimp only
      split_ifs with h
      · simp
      · intro hok
        rw [Except.ok.injEq] at hok
        exact h (by rw [hok]; rfl)

/-- The resolver of the system does. -/
lemma resolves_system {parseIp : String → Option IpAddr}
    {lookupHost : ℕ → String → ℕ → Except String (List SocketAddr)}
    (h : ∀ n host port a, o.resolve n host port = some a →
      a = resolveAddresses parseIp (lookupHost n) host port) : o.Resolves :=
  fun n host port hnil => resolveAddresses_ne_nil (h n host port _ hnil).symm

/-- A trial is over. -/
structure Over (b : State) (t : Trial) (x : State) : Prop extends Tried b t x where
  download : x.progress.download = b.progress.download
  upload : t.direction = .download → x.progress.upload = b.progress.upload
  failed : t.measurement = none → t.failures ≠ []
  calm : Calm t.failures ∨ t.Blocked

/-- How a direction ends. -/
def Ends (b : State) (c : EndpointCandidate) (d : RequestDirection)
    (m : Option DirectionMeasurement) (x : State) : Prop :=
  ∃ t : Trial, t.candidate = c ∧ t.direction = d ∧ t.measurement = m ∧ Over b t x

end steps

/-! ### Candidates -/

section candidates
variable {a b s : State} {trials : List Trial} {t : Trial}

/-- Candidates that are passed over come before the others. -/
lemma Course.after {candidates : List EndpointCandidate} {rest : List Trial}
    (hskipped : ∀ t ∈ trials, t.Skipped) (hcalm : ∀ t ∈ trials, Calm t.failures)
    (h : Course candidates rest) :
    Course (trials.map Trial.candidate ++ candidates) (trials ++ rest) := by
  induction trials with
  | nil => exact h
  | cons t trials ih =>
    rw [List.forall_mem_cons] at hskipped hcalm
    exact .skip _ t _ hcalm.1 hskipped.1 (ih hskipped.2 hcalm.2)

/-- One more trial. -/
lemma Tells.snoc (h : Tells a trials b) (ht : Tried b t s)
    (hdownload : s.progress.download = retained .download (trials ++ [t]))
    (hupload : s.progress.upload = retained .upload (trials ++ [t])) :
    Tells a (trials ++ [t]) s where
  contacts := by simp [ht.contacts, h.contacts]
  failures := by simp [ht.failures, h.failures]
  admission := ht.admission.trans h.admission
  download := hdownload
  upload := hupload
  sound := by
    intro u hu
    rcases List.mem_append.mp hu with hu | hu
    · exact h.sound u hu
    · rw [List.mem_singleton.mp hu]
      exact ht.sound
  requestIds := by
    rw [List.pairwise_append]
    refine ⟨h.requestIds, List.pairwise_singleton _ _, ?_⟩
    intro u hu v hv x hx y hy
    rw [List.mem_singleton.mp hv] at hy
    exact (h.made u hu x hx).trans_le (ht.made y hy).1
  made := by
    intro u hu x hx
    rcases List.mem_append.mp hu with hu | hu
    · exact (h.made u hu x hx).trans_le ht.requestIds
    · rw [List.mem_singleton.mp hu] at hx
      exact (ht.made x hx).2

lemma retained_snoc {d : RequestDirection} :
    retained d (trials ++ [t]) =
      (retained d trials).or (if t.direction = d then t.measurement else none) := by
  rw [retained, retained, List.findSome?_append, List.findSome?_singleton]

lemma Underway.waiting {c : EndpointCandidate} {candidates : List EndpointCandidate}
    (hskipped : ∀ t ∈ trials, t.Skipped) (hcalm : ∀ t ∈ trials, Calm t.failures)
    (h : Tells a trials b) (hname : b.progress.serverName = some c.logicalServer)
    (hs : Underway b c .download s) :
    Waiting a (trials.map Trial.candidate ++ c :: candidates) s := by
  obtain ⟨t, r, rfl, hdirection, hnone, hfs, ht⟩ := hs
  refine ⟨trials ++ [t], (Course.download candidates t hdirection).after hskipped hcalm,
    h.snoc ht.toTried ?_ ?_, ?_, ?_⟩
  · rw [ht.download, h.download, retained_snoc, hnone rfl, ite_self, Option.or_none]
  · rw [ht.upload, h.upload, retained_snoc, hdirection, if_neg (by decide), if_neg (by decide),
      Option.or_none]
  · simp [Named, ht.serverName, hname]
  · exact List.forall_mem_append.mpr ⟨hcalm, by simpa using hfs⟩

/-- The failures of calm trials stop nothing. -/
lemma Tells.calm (h : Tells a trials s) (ha : Calm a.progress.failures)
    (hcalm : ∀ t ∈ trials, Calm t.failures) : Calm s.progress.failures := by
  intro f hf
  rw [h.failures] at hf
  rcases List.mem_append.mp hf with hf | hf
  · exact ha f hf
  · obtain ⟨t, ht, hft⟩ := List.mem_flatMap.mp hf
    exact hcalm t ht f hft

/-- Servers that can be reached, but have no capacity. -/
def crowded : Outside where
  utc _ := 0
  monotonic n := n
  parseHttpDate _ := none
  parseUrl _ := none
  parseLocate _ := .ok []
  parseMeasurement _ := none
  bindsHttp := true
  httpClient := .ok ()
  locate _ := none
  locateBody _ := none
  reserve _ := .ok .untracked
  resolve _ _ port := some (.ok [⟨⟨"192.0.2.1", true⟩, port⟩])
  connect _ _ _ := some (.ok ⟨none⟩)
  rootStore _ _ := .ok ()
  tlsName _ := .ok ()
  tlsConnect _ _ := some (.ok ())
  clientRequest _ := .ok ()
  headerValue _ := true
  handshake _ _ := some (.http 503 none)
  downloads _ := ([], true)
  uploads _ := []

def started : State :=
  { toWorld := (AttemptProgress.new crowded .connect {}).2
    progress := (AttemptProgress.new crowded .connect {}).1 }

end candidates

end Netband.Bandwidth
