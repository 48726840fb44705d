import Netband.Crates
import Netband.Json

/-!
The CSV journal: its columns, what is written for a batch of events, and what is done to a file
that is opened again.
-/

namespace Netband.Journal

open Netband.Lines Netband.Csv Netband.Json

def csvFields : List String :=
  ["schema_version", "event_id", "event_kind", "event_sequence", "run_id", "parent_run_id",
   "root_run_id", "run_kind", "scheduled_at_utc", "requested_at_utc", "started_at_utc",
   "finished_at_utc", "elapsed_ms", "outcome", "message", "command", "netband_version",
   "process_id", "interface", "connection_details", "provider_id", "provider_kind",
   "server_name", "scheduler_action", "scheduler_reason", "trigger_reason",
   "scheduler_not_before_utc", "provider_accounting_date", "provider_daily_starts",
   "bandwidth_start_reserved", "ping_target_ip", "ping_local_ip", "ping_sequence",
   "ping_packets_sent", "ping_packets_received", "ping_rtt_ms", "ping_icmp_type",
   "ping_icmp_code", "load_run_id", "load_phase", "request_id", "request_direction",
   "request_stage", "request_url", "request_local_ip", "request_remote_ip",
   "request_http_status", "request_retry_after_ms", "request_retry_at_utc",
   "download_request_id", "download_local_ip", "download_remote_ip", "download_bytes",
   "download_measurement_duration_ms", "download_mbps", "download_server_tcp_min_rtt_ms",
   "download_server_tcp_rtt_ms", "download_server_tcp_retransmitted_bytes", "upload_request_id",
   "upload_local_ip", "upload_remote_ip", "upload_bytes", "upload_measurement_duration_ms",
   "upload_mbps", "upload_server_tcp_min_rtt_ms", "upload_server_tcp_rtt_ms",
   "upload_server_tcp_retransmitted_bytes", "error_kind", "os_error_code"]

/-- What the serializer gives the CSV writer for an event: a text for each column. The last
column is a number or empty. -/
structure Row where
  fields : List Text
  length : fields.length = csvFields.length
  osErrorCode : ∀ field ∈ fields.getLast?, ∀ c ∈ field, c.isDigit = true ∨ c = '-'
  deriving DecidableEq

abbrev Batch := List Row

def csvHeader : Bytes := [comma].intercalate (csvFields.map fun name => utf8 name.toList)

section crates
variable [Crates]

def headerLine : Bytes := Crates.writeRecord (csvFields.map fun name => utf8 name.toList)

def encodeRow (row : Row) : Bytes := Crates.writeRecord (row.fields.map utf8)
def encodeBatch (batch : Batch) : Bytes := batch.flatMap encodeRow

end crates

inductive JournalError
  | io (message : String)
  | header (path : String)
  | corrupt (path : String)
  | locked (path : String)
  deriving DecidableEq, Repr

/-! ### Recovery -/

/-- The first line without its line break, and without any carriage return before it. -/
def firstLine (content : Bytes) : Bytes := (content.takeWhile (· ≠ lf)).rdropWhile terminator

def validateHeader (path : String) (content : Bytes) : Except JournalError Unit :=
  if firstLine content ≠ csvHeader then .error (.header path) else .ok ()

def validUtf8 (field : Bytes) : Bool := field.toByteArray.validateUTF8

def structurallyValid (fields : List Bytes) : Bool :=
  fields.length = csvFields.length && fields.all validUtf8

/-- Where the file is cut, unless all of it is kept: at a last record that is not terminated. -/
def truncateAt (path : String) (terminated : Bool) (length : ℕ) :
    ℕ → List Record → Except JournalError (Option ℕ)
  | _, [] => .ok none
  | number, r :: rest =>
    if 0 < number ∧ structurallyValid r.fields = false then
      if terminated = false ∧ r.stop = length then .ok (some r.start) else .error (.corrupt path)
    else if 0 < number ∧ terminated = false ∧ r.stop = length then .ok (some r.start)
    else truncateAt path terminated length (number + 1) rest

inductive Recovery
  | keep
  | terminate
  | truncate (length : ℕ)
  deriving DecidableEq, Repr

/-- The reader may stand before the line feed that ends the record before. -/
def boundary (content : Bytes) (offset : ℕ) : ℕ :=
  if content[offset]? = some lf then offset + 1 else offset

def recoverTrailingRecord [Crates] (path : String) (content : Bytes) :
    Except JournalError Recovery :=
  if content.length = csvHeader.length then .ok .terminate
  else do
    let terminated := content.getLast?.any terminator
    match ← truncateAt path terminated content.length 0 (Crates.read content) with
    | none => return .keep
    | some offset => return .truncate (boundary content offset)

def Recovery.apply (content : Bytes) : Recovery → Bytes
  | .keep => content
  | .terminate => content ++ [cr, lf]
  | .truncate length => content.take length

example : csvFields.length = 69 := by decide

end Netband.Journal
