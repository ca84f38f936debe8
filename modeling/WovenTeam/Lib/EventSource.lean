import WovenTeam.Lib.CText
import WovenTeam.Lib.Runs

/-!
# Reading an event stream

A reader of the `text/event-stream` format, byte by byte: a line ends in a newline, a return, or a
return and a newline; a line with a field adds to the event under way, a line that starts with a
colon says nothing, and an empty line ends the event. The reader keeps what it has of an event, so
that it reads the same however the stream is cut into chunks (`run_append`).

`run_frame`: a frame is read as its event. `run_comment`: a comment is read as nothing.
-/

namespace EventSource

open CText Runs

structure Event where
  type : Bytes
  data : Bytes
  deriving DecidableEq, Repr

/-- The line so far, whether a return ended the one before, the fields of the event under way, and
the events read. The fields `id` and `retry` do not show in an event. -/
structure Reader where
  line : Bytes := []
  returned : Bool := false
  type : Bytes := []
  data : Bytes := []
  events : List Event := []
  deriving DecidableEq, Repr

def carriageReturn : UInt8 := 13

/-- An event without data is no event; the newline behind the last line of data is none of it. -/
def Reader.dispatch (r : Reader) : Reader :=
  if r.data = [] then { events := r.events }
  else
    let type := if r.type = [] then bytes "message" else r.type
    { events := r.events ++ [⟨type, r.data.dropLast⟩] }

def Reader.field (r : Reader) (name value : Bytes) : Reader :=
  if name = bytes "event" then { r with type := value }
  else if name = bytes "data" then { r with data := r.data ++ value ++ [newline] }
  else r

/-- One blank behind the colon is not of the value. -/
def fieldValue : Bytes → Bytes
  | 32 :: value => value
  | value => value

def Reader.endLine (r : Reader) : Reader :=
  let next := { r with line := [], returned := false }
  if r.line = [] then next.dispatch
  else if r.line.head? = some colon then next
  else next.field (r.line.takeWhile (· != colon)) (fieldValue (r.line.dropWhile (· != colon)).tail)

def Reader.step (r : Reader) (b : UInt8) : Reader :=
  if b = newline then if r.returned then { r with returned := false } else r.endLine
  else if b = carriageReturn then { r.endLine with returned := true }
  else { r with line := r.line ++ [b], returned := false }

/-- What a writer sends for an event with one line of data. -/
def frame (type data : Bytes) : Bytes :=
  bytes "event: " ++ type ++ bytes "\ndata: " ++ data ++ bytes "\n\n"

/-- The bytes do not end a line. -/
def Unbroken (text : Bytes) : Prop := newline ∉ text ∧ carriageReturn ∉ text

section reading

variable {r : Reader} {text type data : Bytes} {events : List Event}

theorem run_text (h : Unbroken text) (hr : r.returned = false) :
    run Reader.step r text = { r with line := r.line ++ text } := by
  induction text generalizing r with
  | nil => simp
  | cons b text ih =>
    obtain ⟨hnewline, hreturn⟩ := h
    rw [List.mem_cons, not_or] at hnewline hreturn
    have hstep : r.step b = { r with line := r.line ++ [b] } := by
      rw [Reader.step, if_neg (Ne.symm hnewline.1), if_neg (Ne.symm hreturn.1), ← hr]
    have hrest := @ih { r with line := r.line ++ [b] } ⟨hnewline.2, hreturn.2⟩ hr
    rw [run_cons, hstep, hrest]
    simp

/-- A line and its newline. -/
theorem run_line (h : Unbroken text) (hr : r.returned = false) :
    run Reader.step r (text ++ [newline]) = { r with line := r.line ++ text }.endLine := by
  rw [run_append, run_text h hr, run_cons, run_nil, Reader.step, if_pos rfl]
  dsimp only
  rw [hr]
  rfl

theorem unbroken_append {a b : Bytes} (ha : Unbroken a) (hb : Unbroken b) : Unbroken (a ++ b) := by
  simp only [Unbroken, List.mem_append, not_or]
  exact ⟨⟨ha.1, hb.1⟩, ha.2, hb.2⟩

/-- **A frame is read as its event.** -/
theorem run_frame (htype : Unbroken type) (hne : type ≠ []) (hdata : Unbroken data) :
    run Reader.step { events } (frame type data) = { events := events ++ [⟨type, data⟩] } := by
  have hevent : Unbroken (bytes "event: ") := ⟨by decide, by decide⟩
  have hdataKey : Unbroken (bytes "data: ") := ⟨by decide, by decide⟩
  have hempty : Unbroken [] := ⟨List.not_mem_nil, List.not_mem_nil⟩
  have hsplit : frame type data = ((bytes "event: " ++ type) ++ [newline]) ++
      (((bytes "data: " ++ data) ++ [newline]) ++ ([] ++ [newline])) := by
    have hkey : bytes "\ndata: " = newline :: bytes "data: " := by decide
    have hend : bytes "\n\n" = [newline, newline] := by decide
    simp [frame, hkey, hend]
  have hfirst : ({ events, line := [] ++ (bytes "event: " ++ type) } : Reader).endLine =
      { events, type } := by
    simp [Reader.endLine, Reader.field, bytes_eq, fieldValue, colon]
  have hsecond : ({ events, type, line := [] ++ (bytes "data: " ++ data) } : Reader).endLine =
      { events, type, data := data ++ [newline] } := by
    simp [Reader.endLine, Reader.field, bytes_eq, fieldValue, colon]
  have hthird : ({ events, type, data := data ++ [newline], line := [] ++ [] } : Reader).endLine =
      { events := events ++ [⟨type, data⟩] } := by
    simp [Reader.endLine, Reader.dispatch, hne]
  rw [hsplit, run_append, run_append, run_line (unbroken_append hevent htype) rfl]
  dsimp only
  rw [hfirst, run_line (unbroken_append hdataKey hdata) rfl]
  dsimp only
  rw [hsecond, run_line hempty rfl]
  exact hthird

/-- Frames one behind the other are read as their events. -/
theorem run_frames {sent : List Event}
    (h : ∀ e ∈ sent, Unbroken e.type ∧ e.type ≠ [] ∧ Unbroken e.data) :
    run Reader.step { events } (sent.flatMap fun e => frame e.type e.data) =
      { events := events ++ sent } := by
  induction sent generalizing events with
  | nil => simp
  | cons e sent ih =>
    rw [List.forall_mem_cons] at h
    obtain ⟨⟨htype, hne, hdata⟩, hrest⟩ := h
    rw [List.flatMap_cons, run_append, run_frame htype hne hdata, ih hrest]
    simp

/-- **A comment is read as nothing.** -/
theorem run_comment (h : Unbroken text) :
    run Reader.step { events } (colon :: text ++ bytes "\n\n") = { events } := by
  have hcolon : Unbroken [colon] := ⟨by decide, by decide⟩
  have hempty : Unbroken [] := ⟨List.not_mem_nil, List.not_mem_nil⟩
  have hsplit : colon :: text ++ bytes "\n\n" =
      (([colon] ++ text) ++ [newline]) ++ ([] ++ [newline]) := by
    have hend : bytes "\n\n" = [newline, newline] := by decide
    simp [hend]
  have hfirst : ({ events, line := [] ++ ([colon] ++ text) } : Reader).endLine = { events } := by
    simp [Reader.endLine]
  have hsecond : ({ events, line := [] ++ [] } : Reader).endLine = { events } := by
    simp [Reader.endLine, Reader.dispatch]
  rw [hsplit, run_append, run_line (unbroken_append hcolon h) rfl]
  dsimp only
  rw [hfirst, run_line hempty rfl]
  exact hsecond

end reading

/-! ## Returns -/

section returns

variable {r : Reader}

/-- No return in what has been read. -/
structure Reader.Clean (r : Reader) : Prop where
  line : carriageReturn ∉ r.line
  data : carriageReturn ∉ r.data
  events : ∀ e ∈ r.events, carriageReturn ∉ e.data

theorem Reader.Clean.endLine (h : r.Clean) : r.endLine.Clean := by
  have hvalue : ∀ text : Bytes, carriageReturn ∉ text → carriageReturn ∉ fieldValue text := by
    intro text htext hmem
    unfold fieldValue at hmem
    split at hmem
    · exact htext (List.mem_cons_of_mem _ hmem)
    · exact htext hmem
  have hdrop : carriageReturn ∉ (r.line.dropWhile (· != colon)).tail := fun hmem =>
    h.line ((List.dropWhile_suffix _).subset (List.mem_of_mem_tail hmem))
  unfold Reader.endLine
  dsimp only
  split
  · unfold Reader.dispatch
    dsimp only
    split
    · exact ⟨List.not_mem_nil, List.not_mem_nil, h.events⟩
    · refine ⟨List.not_mem_nil, List.not_mem_nil, fun e he => ?_⟩
      rcases List.mem_append.mp he with he | he
      · exact h.events e he
      · rw [List.mem_singleton.mp he]
        exact fun hmem => h.data (List.mem_of_mem_dropLast hmem)
  · split
    · exact ⟨List.not_mem_nil, h.data, h.events⟩
    · unfold Reader.field
      split
      · exact ⟨List.not_mem_nil, h.data, h.events⟩
      · split
        · refine ⟨List.not_mem_nil, ?_, h.events⟩
          simp only [List.mem_append, List.mem_singleton, not_or]
          exact ⟨⟨h.data, hvalue _ hdrop⟩, by decide⟩
        · exact ⟨List.not_mem_nil, h.data, h.events⟩

theorem Reader.Clean.step (h : r.Clean) (b : UInt8) : (r.step b).Clean := by
  unfold Reader.step
  split
  · split
    · exact ⟨h.line, h.data, h.events⟩
    · exact h.endLine
  · split
    · exact ⟨h.endLine.line, h.endLine.data, h.endLine.events⟩
    · rename_i hb
      refine ⟨?_, h.data, h.events⟩
      simp only [List.mem_append, List.mem_singleton, not_or]
      exact ⟨h.line, Ne.symm hb⟩

/-- **No event that is read has a return in its data.** -/
theorem clean_run (h : r.Clean) (stream : Bytes) : (run Reader.step r stream).Clean := by
  induction stream generalizing r with
  | nil => exact h
  | cons b stream ih => exact ih (h.step b)

end returns

end EventSource
