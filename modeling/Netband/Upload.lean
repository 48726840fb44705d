import Netband.Model

/-!
The upload of a bandwidth test: one loop that sends bulk frames, reads what the server reports, and
closes the connection in time.

Each poll is given the time and what the socket answers if it is asked. Reports are read by a JSON
parser that is a parameter. Of a payload only the length matters.
-/

namespace Netband.Upload

open Netband.Time Netband.Model

/-! ### Measurements -/

structure UploadMeasurement where
  bytes : ℕ
  /-- in microseconds -/
  elapsed : ℕ
  deriving DecidableEq

structure TcpMetrics where
  minRttMs : Option ℚ := none
  rttMs : Option ℚ := none
  retransmittedBytes : Option ℕ := none
  deriving DecidableEq

structure WireTcpInfo where
  bytesReceived : Option ℕ
  elapsedTime : Option ℕ
  minRtt : Option ℕ
  rtt : Option ℕ
  bytesRetrans : Option ℕ
  deriving DecidableEq

structure WireMeasurement where
  origin : Option String
  test : Option String
  tcpInfo : Option WireTcpInfo
  deriving DecidableEq

/-- The report of a server on an upload. -/
def WireMeasurement.upload (w : WireMeasurement) : Option UploadMeasurement :=
  if w.origin.any (· ≠ "server") || w.test.any (· ≠ "upload") then none
  else do
    let tcp ← w.tcpInfo
    let bytes ← tcp.bytesReceived
    let micros ← tcp.elapsedTime
    if 0 < bytes ∧ 0 < micros then some ⟨bytes, micros⟩ else none

def updateMetrics (parse : String → Option WireMeasurement) (metrics : TcpMetrics)
    (text : String) : TcpMetrics × Option WireMeasurement :=
  match parse text with
  | none => (metrics, none)
  | some measurement =>
    match measurement.tcpInfo with
    | none => (metrics, some measurement)
    | some tcp =>
      ({ minRttMs := tcp.minRtt.map (· / 1000)
         rttMs := tcp.rtt.map (· / 1000)
         retransmittedBytes := tcp.bytesRetrans }, some measurement)

/-! ### Payloads -/

def initialUploadMessageSize : ℕ := 2 ^ 13
def maxUploadMessageSize : ℕ := 2 ^ 20
def uploadScalingFraction : ℕ := 16

def nextUploadMessageSize (currentSize totalBytes : ℕ) : ℕ :=
  if maxUploadMessageSize ≤ currentSize ∨ totalBytes / uploadScalingFraction ≤ currentSize then
    currentSize
  else min (currentSize * 2) maxUploadMessageSize

/-! ### The socket -/

/-- The answer of what may have to wait. -/
inductive Poll (α : Type)
  | pending
  | ready (a : α)

inductive Message
  | text (t : String)
  | binary (length : ℕ)
  | ping
  | pong
  | frame
  | close
  deriving DecidableEq

/-- What a socket answers when it is polled: the next message, whether it is flushed, whether it is
ready for a message, and whether it takes one. -/
structure Socket (ε : Type) where
  next : Poll (Option (Except ε Message))
  flush : Poll (Except ε Unit)
  ready : Poll (Except ε Unit)
  startSend : Except ε Unit

inductive UploadProgress
  | incoming (message : Option Message)
  | accepted
  | flushed

variable {ε : Type}

def pollUploadIo (socket : Socket ε) (payload : Option Message) (flushing : Bool) :
    Poll (Except ε UploadProgress) :=
  match socket.next with
  | .ready none => .ready (.ok (.incoming none))
  | .ready (some (.ok message)) => .ready (.ok (.incoming (some message)))
  | .ready (some (.error e)) => .ready (.error e)
  | .pending =>
    if flushing then
      match socket.flush with
      | .pending => .pending
      | .ready (.error e) => .ready (.error e)
      | .ready (.ok ()) => .ready (.ok .flushed)
    else
      match payload with
      | none => .pending
      | some _ =>
        match socket.ready with
        | .pending => .pending
        | .ready (.error e) => .ready (.error e)
        | .ready (.ok ()) =>
          match socket.startSend with
          | .error e => .ready (.error e)
          | .ok () => .ready (.ok .accepted)

/-! ### The transfer -/

/-- Nanoseconds. -/
def uploadDuration : ℕ := 10 * 10 ^ 9
def uploadCloseTimeout : ℕ := 2 * 10 ^ 9

inductive UploadError (ε : Type)
  | transport (e : ε)
  | missingClose
  | closeTimeout

/-- What passes between the loop, its socket and its caller. -/
inductive Call
  | sent (message : Message)
  | flushed
  | received (message : Option Message)
  | observed (measurement : Option UploadMeasurement) (metrics : TcpMetrics) (stage : RequestStage)
  deriving DecidableEq

/-- The variables of the loop, what it has done, and its error once it is over. -/
structure UploadTransfer (ε : Type) where
  deadline : ℕ
  closing : Bool := false
  sentBytes : ℕ := 0
  measurement : Option UploadMeasurement := none
  metrics : TcpMetrics := {}
  payload : ℕ := initialUploadMessageSize
  flushing : Bool := false
  closeQueued : Bool := false
  peerClosed : Bool := false
  calls : List Call := []
  result : Option (Option (UploadError ε)) := none

namespace UploadTransfer

def outgoing (s : UploadTransfer ε) : Option Message :=
  if !s.closing then some (.binary s.payload)
  else if !s.closeQueued then some .close
  else none

def log (c : Call) (s : UploadTransfer ε) : UploadTransfer ε := { s with calls := s.calls ++ [c] }

def observed (stage : RequestStage) (s : UploadTransfer ε) : UploadTransfer ε :=
  s.log (.observed s.measurement s.metrics stage)

/-- Send no more bulk frames, and wait for the end for a time. -/
def beginClosing (now : ℕ) (s : UploadTransfer ε) : UploadTransfer ε :=
  ({ s with closing := true, deadline := now + uploadCloseTimeout } : UploadTransfer ε).observed
    .cleanup

/-- The deadline has passed. -/
def elapsed (now : ℕ) (s : UploadTransfer ε) : UploadTransfer ε :=
  if s.closing then { s with result := some (some .closeTimeout) } else s.beginClosing now

def advance (parse : String → Option WireMeasurement) (now : ℕ) (s : UploadTransfer ε) :
    UploadProgress → UploadTransfer ε
  | .incoming (some (.text t)) =>
    let (metrics, wire) := updateMetrics parse s.metrics t
    let measurement :=
      match wire.bind WireMeasurement.upload with
      | none => s.measurement
      | some next =>
        if s.measurement.all fun previous =>
            previous.elapsed < next.elapsed && previous.bytes ≤ next.bytes then some next
        else s.measurement
    ({ s.log (.received (some (.text t))) with metrics, measurement } : UploadTransfer ε).observed
      (if s.closing then .cleanup else .upload)
  | .incoming (some .close) =>
    let s := s.log (.received (some .close))
    let s := if s.closing then s else s.beginClosing now
    { s with peerClosed := true, closeQueued := true, flushing := true }
  | .incoming (some message) => s.log (.received (some message))
  | .incoming none =>
    { s.log (.received none) with
      result := some (if s.peerClosed then none else some .missingClose) }
  | .accepted =>
    let s := { s with calls := s.calls ++ s.outgoing.toList.map Call.sent, flushing := true }
    if !s.closing then { s with sentBytes := min (s.sentBytes + s.payload) u64Max }
    else { s with closeQueued := true }
  | .flushed =>
    let s := { s.log .flushed with flushing := false }
    if !s.closing then { s with payload := nextUploadMessageSize s.payload s.sentBytes } else s

/-- One poll of the loop. The deadline comes first. -/
def poll (parse : String → Option WireMeasurement) (s : UploadTransfer ε) (now : ℕ)
    (socket : Socket ε) : UploadTransfer ε :=
  if s.result.isSome then s
  else if s.deadline ≤ now then s.elapsed now
  else
    match pollUploadIo socket s.outgoing s.flushing with
    | .pending => s
    | .ready (.error e) => { s with result := some (some (.transport e)) }
    | .ready (.ok progress) => s.advance parse now progress

end UploadTransfer

def transferUpload (parse : String → Option WireMeasurement) (started : ℕ)
    (polls : List (ℕ × Socket ε)) : UploadTransfer ε :=
  polls.foldl (fun s p => s.poll parse p.1 p.2) { deadline := started + uploadDuration }

/-! ### The schedule of payloads -/

/-- The length of the bulk frame after `n` others, and what these have sent. -/
def schedule : ℕ → ℕ × ℕ
  | 0 => (initialUploadMessageSize, 0)
  | n + 1 =>
    let sent := min ((schedule n).2 + (schedule n).1) u64Max
    (nextUploadMessageSize (schedule n).1 sent, sent)

/-- The lengths of the first frames. -/
def lengths (n : ℕ) : List ℕ := (List.range n).map fun k => (schedule k).1

/-- The lengths of the bulk frames. -/
def bulks (calls : List Call) : List ℕ :=
  calls.filterMap fun
    | .sent (.binary n) => some n
    | _ => none

/-- The frames that were sent after the last flush. -/
def unflushed (calls : List Call) : List Message :=
  calls.foldl (fun frames c =>
    match c with
    | .sent m => frames ++ [m]
    | .flushed => []
    | _ => frames) []

def Call.bulk (c : Call) : Prop := ∃ n, c = .sent (.binary n)

/-- The caller is told that the transfer is being closed. -/
def Call.cleanup (c : Call) : Prop :=
  ∃ measurement metrics, c = .observed measurement metrics .cleanup

/-- One of the two sides closes. -/
def Call.closes (c : Call) : Prop := c = .sent .close ∨ c = .received (some .close)

/-- Nothing is sent or flushed. -/
def Call.heard : Call → Prop
  | .sent _ | .flushed => False
  | .received _ | .observed _ _ _ => True

/-- What a message reports. -/
def report (parse : String → Option WireMeasurement) : Call → Option UploadMeasurement
  | .received (some (.text t)) => (parse t).bind WireMeasurement.upload
  | _ => none

/-- A report that is later than the one before, and of no fewer bytes, takes its place. -/
def later (previous : Option UploadMeasurement) (next : UploadMeasurement) :
    Option UploadMeasurement :=
  if previous.all fun p => p.elapsed < next.elapsed && p.bytes ≤ next.bytes then some next
  else previous

lemma filterMap_report (parse : String → Option WireMeasurement) (c : Call) :
    [c].filterMap (report parse) = (report parse c).toList := by
  cases h : report parse c <;> simp [h]

/-- The measurement that the caller was told last. -/
def told (calls : List Call) : Option UploadMeasurement :=
  calls.foldl (fun m c =>
    match c with
    | .observed measurement _ _ => measurement
    | _ => m) none

section calls
variable (calls : List Call)

lemma measured_concat {parse : String → Option WireMeasurement} {c : Call}
    (h : report parse c = none) : ((calls ++ [c]).filterMap (report parse)).foldl later none =
      (calls.filterMap (report parse)).foldl later none := by
  rw [List.filterMap_append, filterMap_report, h, Option.toList_none, List.append_nil]

lemma told_concat {c : Call} (h : ∀ measurement metrics stage,
    c ≠ .observed measurement metrics stage) : told (calls ++ [c]) = told calls := by
  cases c with
  | observed measurement metrics stage => exact absurd rfl (h _ _ _)
  | _ => simp [told]

variable (c : Call)

lemma bulks_concat_of_heard (h : c.heard) : bulks (calls ++ [c]) = bulks calls := by
  cases c with
  | sent m => cases h
  | flushed => cases h
  | received m => simp [bulks]
  | observed measurement metrics stage => simp [bulks]

lemma unflushed_concat_of_heard (h : c.heard) : unflushed (calls ++ [c]) = unflushed calls := by
  cases c with
  | sent m => cases h
  | flushed => cases h
  | received m => simp [unflushed]
  | observed measurement metrics stage => simp [unflushed]

@[simp] lemma bulks_flushed : bulks (calls ++ [.flushed]) = bulks calls := by simp [bulks]
@[simp] lemma unflushed_flushed : unflushed (calls ++ [.flushed]) = [] := by simp [unflushed]

@[simp] lemma bulks_binary (n : ℕ) : bulks (calls ++ [.sent (.binary n)]) = bulks calls ++ [n] := by
  simp [bulks]

@[simp] lemma bulks_close : bulks (calls ++ [.sent .close]) = bulks calls := by simp [bulks]

@[simp] lemma unflushed_sent (m : Message) :
    unflushed (calls ++ [.sent m]) = unflushed calls ++ [m] := by
  simp [unflushed]

end calls

/-- How frames are sent: one at a time is on its way; the bulk frames have the lengths of the
schedule, and none is sent once the transfer is being closed; at most one frame closes, and none
after the other side has closed. -/
structure Paced (calls : List Call) : Prop where
  one : ∀ before, before <+: calls → (unflushed before).length ≤ 1
  sizes : bulks calls = lengths (bulks calls).length
  cleaning : calls.Pairwise fun c d => c.cleanup → ¬ d.bulk
  closing : calls.Pairwise fun c d => c.closes → d ≠ .sent .close

section paced
variable {calls : List Call}

/-- One call more. -/
lemma Paced.concat (h : Paced calls) {c : Call} (hone : (unflushed (calls ++ [c])).length ≤ 1)
    (hsizes : bulks (calls ++ [c]) = lengths (bulks (calls ++ [c])).length)
    (hcleaning : c.bulk → ∀ d ∈ calls, ¬ d.cleanup)
    (hclosing : c = .sent .close → ∀ d ∈ calls, ¬ d.closes) : Paced (calls ++ [c]) where
  one before hbefore := by
    rcases List.prefix_concat_iff.mp hbefore with rfl | hbefore
    · exact hone
    · exact h.one before hbefore
  sizes := hsizes
  cleaning := by
    refine List.pairwise_append.mpr ⟨h.cleaning, List.pairwise_singleton _ _, fun d hd e he => ?_⟩
    obtain rfl := List.mem_singleton.mp he
    exact fun hd' hbulk => hcleaning hbulk d hd hd'
  closing := by
    refine List.pairwise_append.mpr ⟨h.closing, List.pairwise_singleton _ _, fun d hd e he => ?_⟩
    obtain rfl := List.mem_singleton.mp he
    exact fun hd' hclose => hclosing hclose d hd hd'

lemma Paced.hear (h : Paced calls) {c : Call} (hc : c.heard) : Paced (calls ++ [c]) := by
  refine h.concat ?_ ?_ ?_ ?_
  · rw [unflushed_concat_of_heard calls c hc]
    exact h.one calls (List.prefix_refl _)
  · rw [bulks_concat_of_heard calls c hc]
    exact h.sizes
  · rintro ⟨n, rfl⟩
    cases hc
  · rintro rfl
    cases hc

lemma Paced.flush (h : Paced calls) : Paced (calls ++ [.flushed]) := by
  refine h.concat (by simp) ?_ ?_ ?_
  · rw [bulks_flushed]
    exact h.sizes
  · rintro ⟨n, hn⟩
    cases hn
  · rintro ⟨⟩

lemma Paced.send (h : Paced calls) (hempty : unflushed calls = [])
    (hclean : ∀ d ∈ calls, ¬ d.cleanup) :
    Paced (calls ++ [.sent (.binary (schedule (bulks calls).length).1)]) := by
  refine h.concat (by simp [hempty]) ?_ (fun _ => hclean) ?_
  · rw [bulks_binary, List.length_append, List.length_singleton, lengths, List.range_succ,
      List.map_append, ← lengths, ← h.sizes]
    rfl
  · rintro ⟨⟩

lemma Paced.close (h : Paced calls) (hempty : unflushed calls = [])
    (hopen : ∀ d ∈ calls, ¬ d.closes) : Paced (calls ++ [.sent .close]) := by
  refine h.concat (by simp [hempty]) ?_ ?_ fun _ => hopen
  · rw [bulks_close]
    exact h.sizes
  · rintro ⟨n, hn⟩
    cases hn

end paced

/-! ### The loop -/

variable {parse : String → Option WireMeasurement}

/-- What holds of frames before every poll. -/
structure Flow (s : UploadTransfer ε) : Prop where
  paced : Paced s.calls
  counted : s.sentBytes = min (bulks s.calls).sum u64Max
  flushed : s.flushing = false → unflushed s.calls = []
  clean : s.closing = false → ∀ c ∈ s.calls, ¬ c.cleanup
  ahead : s.closing = false → s.flushing = false →
    (s.payload, s.sentBytes) = schedule (bulks s.calls).length
  behind : s.closing = false → s.flushing = true → ∃ n, (bulks s.calls).length = n + 1 ∧
    s.payload = (schedule n).1 ∧ s.sentBytes = (schedule (n + 1)).2
  unclosed : s.closeQueued = false → ∀ c ∈ s.calls, ¬ c.closes
  peer : s.peerClosed = true → .received (some .close) ∈ s.calls
  ended : s.result = some none → .received (some .close) ∈ s.calls

/-- The measurement is what the reports make of it, and what the caller knows. -/
structure Good (parse : String → Option WireMeasurement) (s : UploadTransfer ε) : Prop
    extends Flow s where
  measured : s.measurement = (s.calls.filterMap (report parse)).foldl later none
  observed : s.measurement = told s.calls

section steps
variable {s : UploadTransfer ε}

lemma Flow.hear (h : Flow s) {c : Call} (hc : c.heard)
    (hclean : s.closing = false → ¬ c.cleanup) (hclosed : s.closeQueued = false → ¬ c.closes) :
    Flow (s.log c) where
  paced := h.paced.hear hc
  counted := by
    change s.sentBytes = min (bulks (s.calls ++ [c])).sum u64Max
    rw [bulks_concat_of_heard _ _ hc, h.counted]
  flushed hf := by
    change unflushed (s.calls ++ [c]) = []
    rw [unflushed_concat_of_heard _ _ hc, h.flushed hf]
  clean hopen d hd := by
    rcases List.mem_append.mp hd with hd | hd
    · exact h.clean hopen d hd
    · rw [List.mem_singleton.mp hd]
      exact hclean hopen
  ahead hopen hf := by
    change _ = schedule (bulks (s.calls ++ [c])).length
    rw [bulks_concat_of_heard _ _ hc]
    exact h.ahead hopen hf
  behind hopen hf := by
    change ∃ n, (bulks (s.calls ++ [c])).length = n + 1 ∧ _
    rw [bulks_concat_of_heard _ _ hc]
    exact h.behind hopen hf
  unclosed hq d hd := by
    rcases List.mem_append.mp hd with hd | hd
    · exact h.unclosed hq d hd
    · rw [List.mem_singleton.mp hd]
      exact hclosed hq
  peer hp := List.mem_append_left _ (h.peer hp)
  ended hr := List.mem_append_left _ (h.ended hr)

/-- The caller is told what it knows. -/
lemma Good.tell (h : Good parse s) (stage : RequestStage)
    (hstage : s.closing = false → stage ≠ .cleanup) : Good parse (s.observed stage) where
  toFlow := by
    refine h.toFlow.hear trivial ?_ ?_
    · rintro hopen ⟨_, _, hc⟩
      cases hc
      exact hstage hopen rfl
    · rintro - (hc | hc) <;> cases hc
  measured := h.measured.trans (measured_concat s.calls rfl).symm
  observed := by
    change s.measurement = told (s.calls ++ [_])
    rw [told, List.foldl_append]
    rfl

lemma Flow.closing (h : Flow s) (deadline : ℕ) : Flow { s with closing := true, deadline } where
  paced := h.paced
  counted := h.counted
  flushed := h.flushed
  clean hopen := by cases hopen
  ahead hopen := by cases hopen
  behind hopen := by cases hopen
  unclosed := h.unclosed
  peer := h.peer
  ended := h.ended

lemma Good.beginClosing (h : Good parse s) (now : ℕ) : Good parse (s.beginClosing now) := by
  have hclosing : Good parse ({ s with
      closing := true
      deadline := now + uploadCloseTimeout } : UploadTransfer ε) :=
    ⟨h.toFlow.closing _, h.measured, h.observed⟩
  exact hclosing.tell .cleanup fun hopen => by cases hopen

lemma updateMetrics_snd (metrics : TcpMetrics) (t : String) :
    (updateMetrics parse metrics t).2 = parse t := by
  unfold updateMetrics
  split
  · rename_i hnone
    rw [hnone]
  · rename_i hsome
    rw [hsome]
    split <;> rfl

lemma Flow.remember (h : Flow s) (measurement : Option UploadMeasurement) (metrics : TcpMetrics) :
    Flow { s with measurement, metrics } :=
  ⟨h.paced, h.counted, h.flushed, h.clean, h.ahead, h.behind, h.unclosed, h.peer, h.ended⟩

lemma Flow.receive (h : Flow s) {m : Option Message} (hm : m ≠ some .close) :
    Flow (s.log (.received m)) := by
  refine h.hear trivial ?_ ?_
  · rintro - ⟨_, _, hc⟩
    cases hc
  · rintro - (hc | hc)
    · cases hc
    · exact hm (Call.received.inj hc)

/-- A text of the server, which may be a report. -/
lemma Good.text (h : Good parse s) (now : ℕ) (t : String) :
    Good parse (s.advance parse now (.incoming (some (.text t)))) := by
  have hmeasurement : (s.advance parse now (.incoming (some (.text t)))).measurement =
      (((parse t).bind WireMeasurement.upload).toList).foldl later s.measurement := by
    change (match (updateMetrics parse s.metrics t).2.bind WireMeasurement.upload with
      | none => s.measurement
      | some next => later s.measurement next) = _
    rw [updateMetrics_snd]
    cases (parse t).bind WireMeasurement.upload <;> rfl
  have hcalls : (s.advance parse now (.incoming (some (.text t)))).calls =
      s.calls ++ [.received (some (.text t))] ++
        [.observed (s.advance parse now (.incoming (some (.text t)))).measurement
          (s.advance parse now (.incoming (some (.text t)))).metrics
          (if s.closing then .cleanup else .upload)] := rfl
  refine ⟨?_, ?_, ?_⟩
  · refine (((h.toFlow.receive (m := some (.text t)) (by simp)).remember _ _).hear trivial ?_ ?_)
    · rintro hopen ⟨_, _, hc⟩
      have hopen' : s.closing = false := hopen
      rw [hopen'] at hc
      cases hc
    · rintro - (hc | hc) <;> cases hc
  · rw [hcalls, List.filterMap_append, List.filterMap_append, List.foldl_append,
      List.foldl_append, ← h.measured, filterMap_report, filterMap_report, hmeasurement]
    rfl
  · rw [hcalls, told, List.foldl_append]
    rfl

/-- A message that reports nothing. -/
lemma Good.silent (h : Good parse s) {m : Option Message} (hm : ∀ t, m ≠ some (.text t))
    (hflow : Flow (s.log (.received m))) : Good parse (s.log (.received m)) where
  toFlow := hflow
  measured := by
    have hreport : report parse (.received m) = none := by
      rcases m with _ | m
      · rfl
      · cases m with
        | text t => exact absurd rfl (hm t)
        | _ => rfl
    exact h.measured.trans (measured_concat s.calls hreport).symm
  observed := h.observed.trans (told_concat s.calls (by rintro _ _ _ ⟨⟩)).symm

lemma Good.ignore (h : Good parse s) {m : Option Message} (hclose : m ≠ some .close)
    (htext : ∀ t, m ≠ some (.text t)) : Good parse (s.log (.received m)) :=
  h.silent htext (h.toFlow.receive hclose)

/-- The reply is queued, and has to be flushed. -/
lemma Good.reply (h : Good parse s) (hclosing : s.closing = true)
    (hmem : .received (some .close) ∈ s.calls) :
    Good parse { s with peerClosed := true, flushing := true } where
  paced := h.paced
  counted := h.counted
  flushed := by rintro ⟨⟩
  clean := h.clean
  ahead := by rintro - ⟨⟩
  behind hopen := by
    rw [hclosing] at hopen
    cases hopen
  unclosed := h.unclosed
  peer _ := hmem
  ended := h.ended
  measured := h.measured
  observed := h.observed

/-- The server closes. -/
lemma Good.peerCloses (h : Good parse s) (now : ℕ) :
    Good parse (s.advance parse now (.incoming (some .close))) := by
  have hqueued : Good parse { s with closeQueued := true } := { h with unclosed := by rintro ⟨⟩ }
  have hflow : Flow (({ s with closeQueued := true } : UploadTransfer ε).log
      (.received (some .close))) := by
    refine hqueued.toFlow.hear trivial ?_ ?_
    · rintro - ⟨_, _, hc⟩
      cases hc
    · rintro ⟨⟩
  have hlogged := hqueued.silent (by simp) hflow
  have hmem : Call.received (some .close) ∈ s.calls ++ [.received (some .close)] := by simp
  cases hc : s.closing with
  | true =>
    have hreply := hlogged.reply hc hmem
    simp only [UploadTransfer.advance, UploadTransfer.log, hc, if_true] at hreply ⊢
    exact hreply
  | false =>
    have hreply := (hlogged.beginClosing now).reply rfl (List.mem_append_left _ hmem)
    simp only [UploadTransfer.advance, UploadTransfer.log, hc] at hreply ⊢
    exact hreply

/-- A frame is taken. -/
lemma Good.accepted (h : Good parse s) (now : ℕ) (hflushing : s.flushing = false)
    (hsome : s.outgoing.isSome = true) : Good parse (s.advance parse now .accepted) := by
  have hempty := h.flushed hflushing
  cases hc : s.closing with
  | false =>
    -- a bulk frame of the schedule
    obtain ⟨hpayload, hsent⟩ := Prod.mk.inj (h.ahead hc hflushing)
    have hadvance : s.advance parse now .accepted = { s with
        calls := s.calls ++ [.sent (.binary s.payload)]
        flushing := true
        sentBytes := min (s.sentBytes + s.payload) u64Max } := by
      simp [UploadTransfer.advance, UploadTransfer.outgoing, hc]
    have hpaced := h.paced.send hempty (h.clean hc)
    rw [← hpayload] at hpaced
    rw [hadvance]
    exact {
      paced := hpaced
      counted := by
        change min (s.sentBytes + s.payload) u64Max = min (bulks (s.calls ++ [_])).sum u64Max
        rw [bulks_binary, List.sum_append, List.sum_singleton, h.counted]
        omega
      flushed := by rintro ⟨⟩
      clean := fun _ d hd => by
        rcases List.mem_append.mp hd with hd | hd
        · exact h.clean hc d hd
        · rw [List.mem_singleton.mp hd]
          rintro ⟨_, _, ⟨⟩⟩
      ahead := by rintro - ⟨⟩
      behind := fun _ _ => by
        refine ⟨(bulks s.calls).length, ?_, hpayload, ?_⟩
        · change (bulks (s.calls ++ [_])).length = _
          rw [bulks_binary, List.length_append, List.length_singleton]
        · change min (s.sentBytes + s.payload) u64Max = _
          rw [schedule, ← hpayload, ← hsent]
      unclosed := fun hq d hd => by
        rcases List.mem_append.mp hd with hd | hd
        · exact h.unclosed hq d hd
        · rw [List.mem_singleton.mp hd]
          rintro (hd | hd) <;> cases hd
      peer := fun hp => List.mem_append_left _ (h.peer hp)
      ended := fun hr => List.mem_append_left _ (h.ended hr)
      measured := h.measured.trans (measured_concat s.calls rfl).symm
      observed := h.observed.trans (told_concat s.calls (by rintro _ _ _ ⟨⟩)).symm }
  | true =>
    -- the closing frame
    have hq : s.closeQueued = false := by
      by_contra hq
      simp [UploadTransfer.outgoing, hc, hq] at hsome
    have hadvance : s.advance parse now .accepted = { s with
        calls := s.calls ++ [.sent .close]
        flushing := true
        closeQueued := true } := by
      simp [UploadTransfer.advance, UploadTransfer.outgoing, hc, hq]
    rw [hadvance]
    exact {
      paced := h.paced.close hempty (h.unclosed hq)
      counted := by
        change s.sentBytes = min (bulks (s.calls ++ [_])).sum u64Max
        rw [bulks_close, h.counted]
      flushed := by rintro ⟨⟩
      clean := fun hopen => by
        rw [hc] at hopen
        cases hopen
      ahead := by rintro - ⟨⟩
      behind := fun hopen => by
        rw [hc] at hopen
        cases hopen
      unclosed := by rintro ⟨⟩
      peer := fun hp => List.mem_append_left _ (h.peer hp)
      ended := fun hr => List.mem_append_left _ (h.ended hr)
      measured := h.measured.trans (measured_concat s.calls rfl).symm
      observed := h.observed.trans (told_concat s.calls (by rintro _ _ _ ⟨⟩)).symm }

/-- What was taken is on its way. -/
lemma Good.flush (h : Good parse s) (now : ℕ) (hflushing : s.flushing = true) :
    Good parse (s.advance parse now .flushed) := by
  have hadvance : s.advance parse now .flushed = { s with
      calls := s.calls ++ [.flushed]
      flushing := false
      payload := if s.closing then s.payload
        else nextUploadMessageSize s.payload s.sentBytes } := by
    cases hc : s.closing <;> simp [UploadTransfer.advance, UploadTransfer.log, hc]
  rw [hadvance]
  exact {
    paced := h.paced.flush
    counted := by
      change s.sentBytes = min (bulks (s.calls ++ [_])).sum u64Max
      rw [bulks_flushed, h.counted]
    flushed := fun _ => unflushed_flushed s.calls
    clean := fun hopen d hd => by
      rcases List.mem_append.mp hd with hd | hd
      · exact h.clean hopen d hd
      · rw [List.mem_singleton.mp hd]
        rintro ⟨_, _, ⟨⟩⟩
    ahead := fun hopen _ => by
      have hopen' : s.closing = false := hopen
      obtain ⟨n, hn, hpayload, hsent⟩ := h.behind hopen' hflushing
      change ((if s.closing = true then s.payload
        else nextUploadMessageSize s.payload s.sentBytes), s.sentBytes) =
          schedule (bulks (s.calls ++ [_])).length
      rw [bulks_flushed, hn, if_neg (by simp [hopen']), hpayload, hsent]
      rfl
    behind := by rintro - ⟨⟩
    unclosed := fun hq d hd => by
      rcases List.mem_append.mp hd with hd | hd
      · exact h.unclosed hq d hd
      · rw [List.mem_singleton.mp hd]
        rintro (hd | hd) <;> cases hd
    peer := fun hp => List.mem_append_left _ (h.peer hp)
    ended := fun hr => List.mem_append_left _ (h.ended hr)
    measured := h.measured.trans (measured_concat s.calls rfl).symm
    observed := h.observed.trans (told_concat s.calls (by rintro _ _ _ ⟨⟩)).symm }

/-- What a poll of the socket says of it. -/
lemma pollUploadIo_cases {socket : Socket ε} {payload : Option Message} {flushing : Bool}
    {progress : UploadProgress}
    (h : pollUploadIo socket payload flushing = .ready (.ok progress)) :
    (∃ m, progress = .incoming m) ∨ progress = .flushed ∧ flushing = true ∨
      progress = .accepted ∧ flushing = false ∧ payload.isSome = true := by
  unfold pollUploadIo at h
  split at h
  · cases h
    exact .inl ⟨_, rfl⟩
  · cases h
    exact .inl ⟨_, rfl⟩
  · cases h
  · split_ifs at h with hf
    · split at h
      · cases h
      · cases h
      · cases h
        exact .inr (.inl ⟨rfl, hf⟩)
    · cases payload with
      | none => cases h
      | some m =>
        dsimp only at h
        split at h
        · cases h
        · cases h
        · split at h
          · cases h
          · cases h
            exact .inr (.inr ⟨rfl, by simpa using hf, rfl⟩)

/-- What one poll can do. -/
inductive Polled (parse : String → Option WireMeasurement) (s : UploadTransfer ε) (now : ℕ) :
    UploadTransfer ε → Prop
  | waits : Polled parse s now s
  | fails (e : UploadError ε) : Polled parse s now { s with result := some (some e) }
  | closes (hrunning : s.result = none) (hopen : s.closing = false) :
    Polled parse s now (s.beginClosing now)
  | hears (m : Option Message) (hrunning : s.result = none) :
    Polled parse s now (s.advance parse now (.incoming m))
  | flushes (hflushing : s.flushing = true) : Polled parse s now (s.advance parse now .flushed)
  | accepts (hflushing : s.flushing = false) (hsome : s.outgoing.isSome = true) :
    Polled parse s now (s.advance parse now .accepted)

lemma polled (parse : String → Option WireMeasurement) (s : UploadTransfer ε) (now : ℕ)
    (socket : Socket ε) : Polled parse s now (s.poll parse now socket) := by
  unfold UploadTransfer.poll
  split_ifs with hresult hlate
  · exact .waits
  · unfold UploadTransfer.elapsed
    split_ifs with hc
    · exact .fails .closeTimeout
    · exact .closes (by simpa using hresult) (by simpa using hc)
  · split
    · exact .waits
    · exact .fails _
    · rename_i progress hp
      rcases pollUploadIo_cases hp with ⟨m, rfl⟩ | ⟨rfl, hf⟩ | ⟨rfl, hf, hsome⟩
      · exact .hears m (by simpa using hresult)
      · exact .flushes hf
      · exact .accepts hf hsome

/-- **One poll**. -/
lemma Good.poll (h : Good parse s) (now : ℕ) (socket : Socket ε) :
    Good parse (s.poll parse now socket) := by
  have hpolled := polled parse s now socket
  generalize s.poll parse now socket = s' at hpolled
  cases hpolled with
  | waits => exact h
  | fails e => exact { h with ended := by rintro ⟨⟩ }
  | closes => exact h.beginClosing now
  | hears m =>
    rcases m with _ | m
    · have hnone := h.ignore (m := none) (by simp) (by simp)
      refine { hnone with ended := fun hr => ?_ }
      change some (if s.peerClosed then none else some UploadError.missingClose) = _ at hr
      split_ifs at hr with hpeer
      · exact List.mem_append_left _ (h.peer hpeer)
      · cases hr
    · cases m with
      | text t => exact h.text now t
      | close => exact h.peerCloses now
      | binary n => exact h.ignore (by simp) (by simp)
      | ping => exact h.ignore (by simp) (by simp)
      | pong => exact h.ignore (by simp) (by simp)
      | frame => exact h.ignore (by simp) (by simp)
  | flushes hf => exact h.flush now hf
  | accepts hf hsome => exact h.accepted now hf hsome

end steps

lemma transferUpload_concat (parse : String → Option WireMeasurement) (started : ℕ)
    (polls : List (ℕ × Socket ε)) (p : ℕ × Socket ε) :
    transferUpload parse started (polls ++ [p]) =
      (transferUpload parse started polls).poll parse p.1 p.2 := by
  rw [transferUpload, List.foldl_append]
  rfl

/-- Each poll comes no later than the deadline before it: the timer fires in time. -/
def Timely (parse : String → Option WireMeasurement) :
    UploadTransfer ε → List (ℕ × Socket ε) → Prop
  | _, [] => True
  | s, (now, socket) :: polls =>
    (s.result = none → now ≤ s.deadline) ∧ Timely parse (s.poll parse now socket) polls

/-- The time until which an upload may go on. -/
def Bounded (started : ℕ) (s : UploadTransfer ε) : Prop :=
  if s.closing then s.deadline ≤ started + uploadDuration + uploadCloseTimeout
  else s.deadline = started + uploadDuration

/-- The deadline is moved once, when the transfer is being closed. -/
lemma poll_deadline (parse : String → Option WireMeasurement) (s : UploadTransfer ε) (now : ℕ)
    (socket : Socket ε) :
    (s.poll parse now socket).closing = s.closing ∧
        (s.poll parse now socket).deadline = s.deadline ∨
      s.closing = false ∧ s.result = none ∧ (s.poll parse now socket).closing = true ∧
        (s.poll parse now socket).deadline = now + uploadCloseTimeout := by
  have hpolled := polled parse s now socket
  generalize s.poll parse now socket = s' at hpolled
  cases hpolled with
  | waits => exact .inl ⟨rfl, rfl⟩
  | fails => exact .inl ⟨rfl, rfl⟩
  | closes hrunning hopen => exact .inr ⟨hopen, hrunning, rfl, rfl⟩
  | hears m hrunning =>
    rcases m with _ | m
    · exact .inl ⟨rfl, rfl⟩
    · cases m with
      | close =>
        cases hc : s.closing with
        | true => simp [UploadTransfer.advance, UploadTransfer.log, hc]
        | false =>
          simp [UploadTransfer.advance, UploadTransfer.log, UploadTransfer.beginClosing,
            UploadTransfer.observed, hc, hrunning]
      | _ => exact .inl ⟨rfl, rfl⟩
  | flushes => cases hc : s.closing <;> simp [UploadTransfer.advance, UploadTransfer.log, hc]
  | accepts => cases hc : s.closing <;> simp [UploadTransfer.advance, hc]

lemma Bounded.poll {parse : String → Option WireMeasurement} {started now : ℕ}
    {s : UploadTransfer ε} (h : Bounded started s) (hnow : s.result = none → now ≤ s.deadline)
    (socket : Socket ε) : Bounded started (s.poll parse now socket) := by
  unfold Bounded at h ⊢
  rcases poll_deadline parse s now socket with ⟨hc, hd⟩ | ⟨hc, hnone, hc', hd⟩
  · rwa [hc, hd]
  · rw [if_neg (by simp [hc])] at h
    rw [if_pos hc', hd]
    have := hnow hnone
    omega

lemma bounded_transferUpload {parse : String → Option WireMeasurement} {started : ℕ}
    {polls more : List (ℕ × Socket ε)}
    (h : Timely parse { deadline := started + uploadDuration } (polls ++ more)) :
    Bounded started (transferUpload parse started polls) ∧
      Timely parse (transferUpload parse started polls) more := by
  have hrun : ∀ {s : UploadTransfer ε}, Bounded started s → Timely parse s (polls ++ more) →
      Bounded started (polls.foldl (fun s p => s.poll parse p.1 p.2) s) ∧
        Timely parse (polls.foldl (fun s p => s.poll parse p.1 p.2) s) more := by
    clear h
    induction polls with
    | nil => exact fun hb ht => ⟨hb, ht⟩
    | cons p polls ih => exact fun hb ht => ih (hb.poll ht.1 p.2) ht.2
  refine hrun ?_ h
  simp [Bounded]

lemma Bounded.le {started now : ℕ} {s : UploadTransfer ε} (h : Bounded started s)
    (hnow : now ≤ s.deadline) : now ≤ started + uploadDuration + uploadCloseTimeout := by
  unfold Bounded at h
  split_ifs at h
  · exact hnow.trans h
  · omega

/-- **The end of an upload**: with a timer that fires in time, nothing is polled later than twelve
seconds after the start, and a poll at that time is the last. -/
theorem upload_ends {parse : String → Option WireMeasurement} {started now : ℕ}
    {polls : List (ℕ × Socket ε)} {socket : Socket ε}
    (h : Timely parse { deadline := started + uploadDuration } (polls ++ [(now, socket)]))
    (hrunning : (transferUpload parse started polls).result = none) :
    now ≤ started + uploadDuration + uploadCloseTimeout ∧
      (now = started + uploadDuration + uploadCloseTimeout →
        (transferUpload parse started (polls ++ [(now, socket)])).result =
          some (some .closeTimeout)) := by
  obtain ⟨hbounded, hnow, -⟩ := bounded_transferUpload h
  have hle := hnow hrunning
  have hpos : 0 < uploadCloseTimeout := by decide
  rw [transferUpload_concat]
  generalize transferUpload parse started polls = s at *
  unfold Bounded at hbounded
  split_ifs at hbounded with hc
  · refine ⟨hle.trans hbounded, fun heq => ?_⟩
    rw [UploadTransfer.poll, hrunning, if_neg (by simp), if_pos (by omega),
      UploadTransfer.elapsed, if_pos hc]
  · refine ⟨by omega, fun heq => ?_⟩
    omega

/-- A socket on which nothing happens. -/
def stalled : Socket String := ⟨.pending, .pending, .pending, .ok ()⟩

theorem stalled_ends :
    (transferUpload (fun _ => none) 0 [(10 * 10 ^ 9, stalled), (12 * 10 ^ 9, stalled)]).result =
      some (some .closeTimeout) := by
  have htimely : Timely (fun _ => none) { deadline := 0 + uploadDuration }
      ([(10 * 10 ^ 9, stalled)] ++ [(12 * 10 ^ 9, stalled)]) := by
    refine ⟨fun _ => ?_, fun _ => ?_, trivial⟩ <;> decide
  exact (upload_ends htimely (by rfl)).2 (by decide)

/-! ### Transfers -/

section transfers
variable {parse : String → Option WireMeasurement} {s : UploadTransfer ε}

end transfers

end Netband.Upload
