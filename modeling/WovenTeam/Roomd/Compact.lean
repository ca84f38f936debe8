import WovenTeam.Store.Ledger

/-!
# Client records

`compactJsonLine` puts the JSON of a client on one line: it drops line breaks and tabs between
tokens and keeps them inside strings. What it makes is appended to the ledger as it is, so a line
break in a string ends the ledger's line there.
-/

namespace WovenTeam

open CText QuotedText LineReader

/-- The bytes the loop drops outside strings. -/
def isLineSpace (b : UInt8) : Bool := b == 10 || b == 13 || b == 9

/-- The loop of `compactJsonLine` with room for `room` bytes. -/
def compactFrom (inString escaped : Bool) (room : Nat) : Bytes → Bytes
  | [] => []
  | b :: t =>
    if room = 0 then []
    else if escaped then b :: compactFrom inString false (room - 1) t
    else if b = backslash ∧ inString then b :: compactFrom inString true (room - 1) t
    else if b = quote then b :: compactFrom (!inString) false (room - 1) t
    else if !inString && isLineSpace b then compactFrom inString false room t
    else b :: compactFrom inString false (room - 1) t

def compactJsonLine (input : Bytes) (outputSize : Nat) : Bytes :=
  compactFrom false false (outputSize - 1) input

/-- Text on one line comes out as it is, cut to the buffer. -/
theorem compactFrom_of_oneLine {s : Bytes} (h : ∀ b ∈ s, isLineSpace b = false)
    (inString escaped : Bool) (room : Nat) : compactFrom inString escaped room s = s.take room := by
  induction s generalizing inString escaped room with
  | nil => simp [compactFrom]
  | cons b t ih =>
    have ht : ∀ c ∈ t, isLineSpace c = false := fun c hc => h c (by simp [hc])
    cases room with
    | zero => simp [compactFrom]
    | succ room =>
      simp only [compactFrom, Nat.add_one_ne_zero, Nat.add_one_sub_one, ↓reduceIte, ih ht,
        h b (by simp), Bool.and_false, Bool.false_eq_true, List.take_succ_cons, ite_self]

theorem compactJsonLine_of_oneLine {s : Bytes} (h : ∀ b ∈ s, isLineSpace b = false) (size : Nat) :
    compactJsonLine s size = snprintf size s :=
  compactFrom_of_oneLine h ..

/-- The lines a client's JSON makes in the ledger. -/
def recordedLines (body : Bytes) : Ledger :=
  fgetsLines wtTaskLedgerLineSize (compactJsonLine body wtTaskLedgerLineSize ++ [newline])

theorem wtTaskAppendRecord_compact (ledger : Ledger) (body : Bytes) :
    wtTaskAppendRecord ledger (compactJsonLine body wtTaskLedgerLineSize) =
      ledger ++ recordedLines body := rfl

/-- JSON without line breaks and tabs makes one line. -/
theorem recordedLines_of_oneLine {body : Bytes} (h : ∀ b ∈ body, isLineSpace b = false)
    (hlen : body.length + 2 ≤ wtTaskLedgerLineSize) : recordedLines body = [body ++ [newline]] := by
  have hn : newline ∉ body := fun hm => absurd (h newline hm) (by decide)
  rw [recordedLines, compactJsonLine_of_oneLine h, snprintf_of_lt (by omega),
    fgetsLines_record hn hlen]
  rfl

end WovenTeam
