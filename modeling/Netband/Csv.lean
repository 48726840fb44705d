import Netband.Lines

/-!
Comma-separated records, as RFC 4180 has them.

A writer quotes a field that needs it and ends a record with CR LF. A reader takes CR or LF
outside quotes for the end of a record, skips line breaks before a record, and takes the end of
the input for the end of an open record.
-/

namespace Netband.Csv

open Netband.Lines

def comma : UInt8 := 44
def quote : UInt8 := 34
def cr : UInt8 := 13
def lf : UInt8 := 10

def terminator (c : UInt8) : Bool := c = cr || c = lf

/-! ### Writing -/

/-- A byte that is not written outside quotes. -/
def special (c : UInt8) : Bool := c = comma || c = quote || terminator c

def escapeByte (c : UInt8) : Bytes := if c = quote then [quote, quote] else [c]
def escape (field : Bytes) : Bytes := field.flatMap escapeByte

def writeField (field : Bytes) : Bytes :=
  if field.any special then quote :: escape field ++ [quote] else field

/-- The fields of a record; one with a single empty field is not written this way. -/
def writeFields (fields : List Bytes) : Bytes := [comma].intercalate (fields.map writeField)

/-! ### Reading -/

inductive Mode
  | startRecord | startField | inField | inQuotedField | inDoubleEscapedQuote
  deriving DecidableEq

inductive Action
  | discard (mode : Mode)
  | copy (mode : Mode)
  | endField
  | endRecord
  deriving DecidableEq

def separated (c : UInt8) : Action :=
  if c = comma then .endField else if terminator c then .endRecord else .copy .inField

def action : Mode → UInt8 → Action
  | .startRecord, c => if terminator c then .discard .startRecord
    else if c = quote then .discard .inQuotedField else separated c
  | .startField, c => if c = quote then .discard .inQuotedField else separated c
  | .inField, c => separated c
  | .inQuotedField, c => if c = quote then .discard .inDoubleEscapedQuote else .copy .inQuotedField
  | .inDoubleEscapedQuote, c => if c = quote then .copy .inQuotedField else separated c

/-- A record, and where the reader stood before and after it. -/
structure Record where
  start : ℕ
  fields : List Bytes
  stop : ℕ
  deriving DecidableEq, Repr

end Netband.Csv
