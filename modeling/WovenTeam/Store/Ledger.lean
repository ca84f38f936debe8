import WovenTeam.Json
import WovenTeam.Lib.LineReader

/-!
# The task ledger

The ledger is a text file to which every component appends one JSON record a line. Here it is the
list of lines `fgets` hands its readers, each with its newline; `Store.Append` treats the file as
bytes and says when the two views agree. Every reader walks the whole list and takes the fields it
needs out of each line with the readers of `wt_json.c`.
-/

namespace WovenTeam

open CText QuotedText LineReader

abbrev wtTaskIdSize : Nat := 128
abbrev wtTaskAgentSize : Nat := 64
abbrev wtTaskStatusSize : Nat := 32
abbrev wtTaskTitleSize : Nat := 192
abbrev wtTaskBodySize : Nat := 2048
abbrev wtTaskPolicySize : Nat := 64
abbrev wtTaskModelSize : Nat := 128
abbrev wtTaskLedgerLineSize : Nat := 16384

abbrev Ledger := List Bytes

/-- An append whose writes all succeed, to a file at a line start. -/
def wtTaskAppendRecord (ledger : Ledger) (jsonLine : Bytes) : Ledger :=
  ledger ++ fgetsLines wtTaskLedgerLineSize (jsonLine ++ [newline])

/-- The line a printed record makes in the ledger. -/
def recordLine (record : Members) : Bytes := record.object ++ [newline]

theorem wtTaskAppendRecord_object (ledger : Ledger) {record : Members}
    (h : record.object.length + 2 ≤ wtTaskLedgerLineSize) :
    wtTaskAppendRecord ledger record.object = ledger ++ [recordLine record] := by
  rw [wtTaskAppendRecord, fgetsLines_record record.newline_notMem_object h]
  rfl

theorem quote_notMem_newline : quote ∉ [newline] := by decide

def taskPackageSchema : String := "woventeam.task_package.v0.1"
def taskEventSchema : String := "woventeam.task_event.v0.1"

def lineHasSchema (line : Bytes) (schema : String) : Bool :=
  wtJsonReadString line "schema" 128 == .ok (bytes schema)

theorem taskEvent_ne_taskPackage {line : Bytes} (h : lineHasSchema line taskEventSchema) :
    lineHasSchema line taskPackageSchema = false := by
  simp only [lineHasSchema, beq_iff_eq] at h
  rw [lineHasSchema, h]
  decide

/-- The task a line names, as every reader of the store reads it. -/
def lineTaskId (line : Bytes) : Option Bytes :=
  (wtJsonReadString line "taskId" wtTaskIdSize).toOption

theorem lineTaskId_length {line taskId : Bytes} (h : lineTaskId line = some taskId) :
    taskId.length < wtTaskIdSize :=
  wtJsonReadString_length (StringField.toOption_eq_some_iff.mp h)

/-- `readOptionalString(line, "eventType", eventType, sizeof(eventType), "")`. -/
def lineEventType (line : Bytes) : Bytes := (wtJsonReadString line "eventType" 32).orElse []

end WovenTeam
