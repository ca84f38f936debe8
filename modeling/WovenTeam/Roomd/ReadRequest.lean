import WovenTeam.Roomd.Http
import WovenTeam.SecretScan

/-!
# Reading a request

`wtHttpReadRequest` calls `recv` until the text in its buffer looks complete: behind an empty line,
it takes the number behind the first `Content-Length:` for the length of the body. `readWhole_iff`
says for which requests, cut into which chunks, it returns the whole request and never less.
-/

namespace WovenTeam

open CText

def emptyLine : Bytes := bytes "\r\n\r\n"
def contentLengthName : Bytes := bytes "Content-Length:"

/-- The `int` that `sscanf(header, "Content-Length: %d", …)` leaves where it was 0 before. -/
def scanLength (header : Bytes) : Int :=
  toInt32 ((strtoll (header.drop contentLengthName.length)).getD 0)

/-- The check behind each `recv`; sizes have 64 bits. -/
def requestReceived (buffer : Bytes) : Bool :=
  match strstr emptyLine (cString buffer) with
  | none => false
  | some headersEnd =>
    match strstr contentLengthName (cString buffer) with
    | none => true
    | some header =>
      let headerBytes := (cString buffer).length - headersEnd.length + 4
      decide (((headerBytes : Int) + scanLength header) % 2 ^ 64 ≤ buffer.length)

/-- How a call ends: it returns 0 or -1, or a `recv` waits for a peer that sends nothing. -/
inductive Reading where
  | returned (request : Bytes)
  | failed
  | blocked
  deriving DecidableEq, Repr

def finishReading (used : Bytes) : Reading := if used = [] then .failed else .returned used

/-- The loop, where each `recv` gets the next chunk as far as there is room. Behind the last chunk
the peer closes or stays. -/
def recvLoop (bufferSize : Nat) (closes : Bool) (used : Bytes) : List Bytes → Reading
  | [] =>
    if used.length + 1 < bufferSize ∧ closes = false then .blocked else finishReading used
  | chunk :: chunks =>
    if used.length + 1 < bufferSize then
      if chunk = [] then finishReading used
      else
        let used' := used ++ chunk.take (bufferSize - used.length - 1)
        if requestReceived used' then finishReading used'
        else recvLoop bufferSize closes used' chunks
    else finishReading used

def wtHttpReadRequest (bufferSize : Nat) (closes : Bool) (chunks : List Bytes) : Reading :=
  recvLoop bufferSize closes [] chunks

/-! ## Requests -/

structure HttpHeader where
  name : Bytes
  value : Bytes
  named : name ≠ [] ∧ colon ∉ name
  text : ∀ b ∈ name ++ value, b ≠ 0 ∧ b ≠ 13 ∧ b ≠ newline

def HttpHeader.line (header : HttpHeader) : Bytes := header.name ++ colon :: header.value

def lowerByte (b : UInt8) : UInt8 := if 65 ≤ b ∧ b ≤ 90 then b + 32 else b

/-- The name is `Content-Length` in any letter case. -/
def HttpHeader.IsLength (header : HttpHeader) : Prop :=
  header.name.map lowerByte = bytes "content-length"

/-- The value is the number, between blanks. -/
def HttpHeader.Says (header : HttpHeader) (n : Nat) : Prop :=
  ∃ before after, (∀ b ∈ before ++ after, isBlank b) ∧
    header.value = before ++ (decimalNat n ++ after)

/-- A request that declares the length of its body. -/
structure HttpRequest where
  startLine : Bytes
  headers : List HttpHeader
  body : Bytes
  started : startLine ≠ [] ∧ ∀ b ∈ startLine, b ≠ 0 ∧ b ≠ 13 ∧ b ≠ newline
  declared : ∃ header ∈ headers, header.IsLength
  agree : ∀ header ∈ headers, header.IsLength → header.Says body.length

def HttpRequest.lines (r : HttpRequest) : List Bytes := r.startLine :: r.headers.map HttpHeader.line

/-- The lines with the empty line behind them. -/
def HttpRequest.head (r : HttpRequest) : Bytes :=
  r.lines.flatMap (· ++ bytes "\r\n") ++ bytes "\r\n"

def HttpRequest.text (r : HttpRequest) : Bytes := r.head ++ r.body

/-- The chunks of a request that come in: all of it, or less. -/
structure Arrival (r : HttpRequest) where
  chunks : List Bytes
  closes : Bool
  nonempty : [] ∉ chunks
  sent : chunks.flatten <+: r.text

/-- The text that has come in behind one of the chunks. -/
def Boundary (used : Bytes) (chunks : List Bytes) (p : Bytes) : Prop :=
  ∃ before after, chunks = before ++ after ∧ before ≠ [] ∧ p = used ++ before.flatten

/-- The whole request is returned where it comes in and fits, and nothing shorter ever. -/
structure ReadWhole (bufferSize : Nat) (r : HttpRequest) (a : Arrival r) : Prop where
  whole : a.chunks.flatten = r.text → r.text.length < bufferSize →
    wtHttpReadRequest bufferSize a.closes a.chunks = .returned r.text
  never_short : ∀ text, wtHttpReadRequest bufferSize a.closes a.chunks = .returned text →
    r.head.length + r.body.length ≤ text.length

/-- The part seems to be the whole body: where the first `Content-Length:` stands in the head or in
front of a null byte of the part, the number behind it does not reach beyond the part. -/
def SeemsComplete (r : HttpRequest) (part : Bytes) : Prop :=
  ∀ header, strstr contentLengthName (r.head ++ cString part) = some header →
    ((r.head.length : Int) + scanLength header) % 2 ^ 64 ≤ (r.head.length + part.length : Nat)

/-- No chunk but the last ends at a place where the request seems complete; a request that comes in
fits, and seems complete, is closed or fills the buffer; one that is cut is waited for. -/
structure ArrivesWell (bufferSize : Nat) (r : HttpRequest) (a : Arrival r) : Prop where
  going : ∀ part, Boundary [] a.chunks (r.head ++ part) → part ≠ r.body → ¬ SeemsComplete r part
  complete : a.chunks.flatten = r.text → r.text.length < bufferSize ∧
    (SeemsComplete r r.body ∨ a.closes = true ∨ r.text.length + 1 = bufferSize)
  cut : a.chunks.flatten ≠ r.text → a.closes = false ∧ a.chunks.flatten.length + 1 < bufferSize

/-! ## The check -/

section check

variable {r : HttpRequest}

theorem strstr_emptyLine {lines : List Bytes} (hlines : ∀ line ∈ lines, line ≠ [] ∧ 13 ∉ line)
    (hne : lines ≠ []) (rest : Bytes) :
    strstr emptyLine (lines.flatMap (· ++ bytes "\r\n") ++ (bytes "\r\n" ++ rest)) =
      some (emptyLine ++ rest) := by
  have hpattern : emptyLine = 13 :: bytes "\n\r\n" := by decide
  have hbreak : bytes "\r\n" = [13, 10] := by decide
  induction lines with
  | nil => exact absurd rfl hne
  | cons line lines ih =>
    rw [List.forall_mem_cons] at hlines
    rw [List.flatMap_cons, List.append_assoc, List.append_assoc, hpattern,
      strstr_skip hlines.1.2, ← hpattern]
    cases lines with
    | nil => exact strstr_of_start ⟨rest, by simp [emptyLine, bytes_eq]⟩
    | cons next lines =>
      obtain ⟨b, next', hnext⟩ := List.exists_cons_of_ne_nil (hlines.2 next (by simp)).1
      have hb : b ≠ 13 := fun h => (hlines.2 next (by simp)).2 (by simp [hnext, h])
      rw [← ih hlines.2 (by simp), hbreak, List.cons_append, strstr_cons, hpattern]
      · exact strstr_skip (a := [10]) (by decide)
      · intro h
        have hlist : emptyLine = [13, 10, 13, 10] := by decide
        rw [hlist, hnext] at h
        simp only [List.flatMap_cons, List.cons_append, List.nil_append,
          List.cons_prefix_cons] at h
        exact hb h.2.2.1.symm

theorem HttpHeader.line_text (header : HttpHeader) :
    ∀ b ∈ header.line, b ≠ 0 ∧ b ≠ 13 ∧ b ≠ newline := by
  intro b hb
  rw [HttpHeader.line, List.mem_append, List.mem_cons] at hb
  rcases hb with hb | rfl | hb
  · exact header.text b (List.mem_append_left _ hb)
  · decide
  · exact header.text b (List.mem_append_right _ hb)

theorem lines_text : ∀ line ∈ r.lines, line ≠ [] ∧ 0 ∉ line ∧ 13 ∉ line := by
  intro line hline
  rw [HttpRequest.lines, List.mem_cons, List.mem_map] at hline
  rcases hline with rfl | ⟨header, -, rfl⟩
  · exact ⟨r.started.1, fun h => (r.started.2 _ h).1 rfl, fun h => (r.started.2 _ h).2.1 rfl⟩
  · exact ⟨by simp [HttpHeader.line], fun h => (header.line_text _ h).1 rfl,
      fun h => (header.line_text _ h).2.1 rfl⟩

theorem zero_notMem_head : 0 ∉ r.head := by
  have hbreak : (0 : UInt8) ∉ bytes "\r\n" := by decide
  intro h
  rw [HttpRequest.head, List.mem_append, List.mem_flatMap] at h
  rcases h with ⟨line, hline, h⟩ | h
  · rcases List.mem_append.mp h with h | h
    · exact (lines_text line hline).2.1 h
    · exact hbreak h
  · exact hbreak h

theorem strstr_head (rest : Bytes) :
    strstr emptyLine (r.head ++ rest) = some (emptyLine ++ rest) := by
  rw [HttpRequest.head, List.append_assoc]
  exact strstr_emptyLine (fun line hline => ⟨(lines_text line hline).1, (lines_text line hline).2.2⟩)
    (by simp [HttpRequest.lines]) rest

/-- The empty line is not there before the head has come in. -/
theorem strstr_cut {p : Bytes} (hp : p <+: r.text) (hlen : p.length < r.head.length) :
    strstr emptyLine p = none := by
  by_contra hfound
  obtain ⟨found, hfound⟩ := Option.ne_none_iff_exists'.mp hfound
  obtain ⟨a, b, rfl, -⟩ := strstr_eq_some hfound
  obtain ⟨tail, htail⟩ := hp
  obtain ⟨pre, rest, hfirst, hrest⟩ := firstAt_of_strstr (strstr_head (r := r) r.body)
  obtain rfl := List.append_cancel_left hrest
  have hhead := congrArg List.length hfirst.here
  have hle := hfirst.first a (emptyLine ++ (b ++ tail)) (by
    rw [← HttpRequest.text, ← htail]
    simp) (List.prefix_append _ _)
  simp only [List.length_append] at hhead hlen
  omega

theorem cString_head (part : Bytes) : cString (r.head ++ part) = r.head ++ cString part :=
  List.takeWhile_append_of_pos fun b hb => by
    have hne : b ≠ 0 := fun h => zero_notMem_head (h ▸ hb)
    simpa using hne

/-- The check goes by the head and what has come in of the body. -/
theorem requestReceived_iff {p : Bytes} (hp : p <+: r.text) :
    requestReceived p = true ↔ ∃ part, p = r.head ++ part ∧ SeemsComplete r part := by
  by_cases hlen : p.length < r.head.length
  · have hcut : cString p = p := by
      refine List.takeWhile_eq_self_iff.mpr fun b hb => ?_
      have hprefix : p <+: r.head :=
        List.prefix_of_prefix_length_le hp (List.prefix_append _ _) (by omega)
      have hne : b ≠ 0 := fun h => zero_notMem_head (h ▸ hprefix.subset hb)
      simpa using hne
    rw [requestReceived, hcut, strstr_cut hp hlen]
    refine iff_of_false (by simp) ?_
    rintro ⟨part, rfl, -⟩
    rw [List.length_append] at hlen
    omega
  · obtain ⟨part, rfl⟩ : r.head <+: p :=
      List.prefix_of_prefix_length_le (List.prefix_append _ _) hp (by omega)
    have hbytes : (r.head ++ cString part).length - (emptyLine ++ cString part).length + 4 =
        r.head.length := by
      obtain ⟨pre, rest, hfirst, hrest⟩ := firstAt_of_strstr (strstr_head (r := r) (cString part))
      have hhead := congrArg List.length hfirst.here
      have hfound := congrArg List.length hrest
      have hfour : emptyLine.length = 4 := by decide
      simp only [List.length_append] at *
      omega
    have hiff : requestReceived (r.head ++ part) = true ↔ SeemsComplete r part := by
      rw [requestReceived, cString_head, strstr_head]
      dsimp only
      rw [hbytes, SeemsComplete]
      cases strstr contentLengthName (r.head ++ cString part) with
      | none => simp
      | some header => simp [List.length_append]
    rw [hiff]
    constructor
    · exact fun h => ⟨part, rfl, h⟩
    · rintro ⟨part', heq, h⟩
      rwa [List.append_cancel_left heq]

end check

/-! ## The loop -/

section loop

variable {bufferSize : Nat} {closes : Bool} {used p : Bytes} {chunks : List Bytes}

theorem Boundary.cons {chunk : Bytes} : Boundary used (chunk :: chunks) p ↔
    p = used ++ chunk ∨ Boundary (used ++ chunk) chunks p := by
  constructor
  · rintro ⟨before, after, hchunks, hne, rfl⟩
    obtain ⟨first, before, rfl⟩ := List.exists_cons_of_ne_nil hne
    rw [List.cons_append, List.cons.injEq] at hchunks
    obtain ⟨rfl, rfl⟩ := hchunks
    cases before with
    | nil => exact .inl (by simp)
    | cons second before => exact .inr ⟨second :: before, after, rfl, by simp, by simp⟩
  · rintro (rfl | ⟨before, after, rfl, -, rfl⟩)
    · exact ⟨[chunk], chunks, rfl, by simp, by simp⟩
    · exact ⟨chunk :: before, after, rfl, by simp, by simp⟩

theorem Boundary.le (h : Boundary used chunks p) : p <+: used ++ chunks.flatten := by
  obtain ⟨before, after, rfl, -, rfl⟩ := h
  exact ⟨after.flatten, by simp⟩

theorem Boundary.used_le (h : Boundary used chunks p) : used <+: p := by
  obtain ⟨before, after, -, -, rfl⟩ := h
  exact List.prefix_append _ _

theorem Boundary.ne_nil (h : Boundary used chunks p) (hnonempty : [] ∉ chunks) : p ≠ [] := by
  obtain ⟨before, after, rfl, hne, rfl⟩ := h
  obtain ⟨chunk, before, rfl⟩ := List.exists_cons_of_ne_nil hne
  intro hnil
  simp only [List.flatten_cons, List.append_eq_nil_iff] at hnil
  exact hnonempty (by simp [hnil.2.1])

/-- How the loop ends where no check stops it. -/
def finishUnchecked (bufferSize : Nat) (closes : Bool) (text : Bytes) : Reading :=
  if text.length + 1 < bufferSize ∧ closes = false then .blocked
  else finishReading (text.take (bufferSize - 1))

/-- The loop stops behind the first chunk that passes the check, or runs to the end. -/
theorem recvLoop_cases (hnonempty : [] ∉ chunks) (hroom : used.length + 1 < bufferSize) :
    (∃ p, Boundary used chunks p ∧ p.length + 1 < bufferSize ∧ requestReceived p ∧
      (∀ q, Boundary used chunks q → q.length < p.length → requestReceived q = false) ∧
      recvLoop bufferSize closes used chunks = finishReading p) ∨
    ((∀ p, Boundary used chunks p → p.length + 1 < bufferSize → requestReceived p = false) ∧
      recvLoop bufferSize closes used chunks =
        finishUnchecked bufferSize closes (used ++ chunks.flatten)) := by
  induction chunks generalizing used with
  | nil =>
    refine .inr ⟨?_, ?_⟩
    · rintro p ⟨before, after, hchunks, hne, -⟩
      exact absurd (List.append_eq_nil_iff.mp hchunks.symm).1 hne
    · rw [recvLoop, finishUnchecked, List.flatten_nil, List.append_nil,
        List.take_of_length_le (by omega)]
  | cons chunk chunks ih =>
    rw [List.mem_cons, not_or] at hnonempty
    rw [recvLoop, if_pos hroom, if_neg (Ne.symm hnonempty.1)]
    dsimp only
    by_cases hlong : (used ++ chunk).length + 1 < bufferSize
    · have htake : chunk.take (bufferSize - used.length - 1) = chunk := by
        rw [List.length_append] at hlong
        exact List.take_of_length_le (by omega)
      rw [htake]
      cases hcheck : requestReceived (used ++ chunk) with
      | true =>
        refine .inl ⟨used ++ chunk, Boundary.cons.mpr (.inl rfl), hlong, hcheck, ?_, by simp⟩
        intro q hq hlt
        rcases Boundary.cons.mp hq with rfl | hq
        · exact absurd hlt (Nat.lt_irrefl _)
        · exact absurd hlt (Nat.not_lt.mpr hq.used_le.length_le)
      | false =>
        rw [if_neg (by simp)]
        rcases ih hnonempty.2 hlong with ⟨p, hp, hlt, hreceived, hfirst, heq⟩ | ⟨hquiet, heq⟩
        · refine .inl ⟨p, Boundary.cons.mpr (.inr hp), hlt, hreceived, ?_, heq⟩
          intro q hq
          rcases Boundary.cons.mp hq with rfl | hq
          · exact fun _ => hcheck
          · exact hfirst q hq
        · refine .inr ⟨?_, ?_⟩
          · intro p hp
            rcases Boundary.cons.mp hp with rfl | hp
            · exact fun _ => hcheck
            · exact hquiet p hp
          · rw [heq, List.flatten_cons, List.append_assoc]
    · -- the buffer is full behind this chunk
      have hfull : used ++ chunk.take (bufferSize - used.length - 1) =
          (used ++ (chunk :: chunks).flatten).take (bufferSize - 1) := by
        have hle : bufferSize - 1 - used.length ≤ chunk.length := by
          rw [List.length_append] at hlong
          omega
        rw [List.flatten_cons, List.take_append, @List.take_of_length_le _ _ used (by omega),
          List.take_append_of_le_length hle, Nat.sub_right_comm]
      refine .inr ⟨?_, ?_⟩
      · intro p hp hlt
        rcases Boundary.cons.mp hp with rfl | hp
        · exact absurd hlt hlong
        · have := hp.used_le.length_le
          omega
      · have hend : ∀ text : Bytes, text.length = bufferSize - 1 →
            recvLoop bufferSize closes text chunks = finishReading text := by
          intro text htext
          have hno : ¬ text.length + 1 < bufferSize := by omega
          cases chunks with
          | nil => rw [recvLoop, if_neg (fun h => hno h.1)]
          | cons => rw [recvLoop, if_neg hno]
        have hlen : (used ++ (chunk :: chunks).flatten).length ≥ bufferSize - 1 := by
          simp only [List.flatten_cons, List.length_append] at hlong ⊢
          omega
        have htaken := List.length_take_of_le hlen
        rw [hfull, hend _ htaken, ite_self, finishUnchecked, if_neg fun h => by omega]

end loop

/-! ## Whole requests -/

section whole

variable {bufferSize : Nat} {r : HttpRequest} {a : Arrival r}

theorem text_ne_nil : r.text ≠ [] := by
  have hbreak : bytes "\r\n" ≠ [] := by decide
  simp [HttpRequest.text, HttpRequest.head, hbreak]

theorem Arrival.boundary_le {p : Bytes} (h : Boundary [] a.chunks p) : p <+: r.text :=
  (by simpa using h.le : p <+: a.chunks.flatten).trans a.sent

/-- The last chunk ends the text. -/
theorem Arrival.boundary_all (h : a.chunks ≠ []) : Boundary [] a.chunks a.chunks.flatten :=
  ⟨a.chunks, [], by simp, h, by simp⟩

/-- Where no chunk but the last seems to end the request, none passes the check. -/
theorem going_iff : (∀ part, Boundary [] a.chunks (r.head ++ part) → part ≠ r.body →
      ¬ SeemsComplete r part) ↔
    ∀ p, Boundary [] a.chunks p → p ≠ r.text → requestReceived p = false := by
  constructor
  · intro h p hp hne
    rw [← Bool.not_eq_true, requestReceived_iff (a.boundary_le hp)]
    rintro ⟨part, rfl, hseems⟩
    exact h part hp (fun heq => hne (by rw [heq]; rfl)) hseems
  · intro h part hp hne hseems
    have hreceived := (requestReceived_iff (a.boundary_le hp)).mpr ⟨part, rfl, hseems⟩
    rw [h _ hp (fun heq => hne (List.append_cancel_left heq))] at hreceived
    cases hreceived

theorem seemsComplete_body : SeemsComplete r r.body ↔ requestReceived r.text = true := by
  rw [requestReceived_iff (List.prefix_refl _)]
  constructor
  · exact fun h => ⟨r.body, rfl, h⟩
  · rintro ⟨part, heq, h⟩
    rwa [List.append_cancel_left heq]

/-- **A request is read whole, and never shorter, exactly where nothing comes in or it arrives
well.** -/
theorem readWhole_iff (bufferSize : Nat) (r : HttpRequest) (a : Arrival r) :
    ReadWhole bufferSize r a ↔
      a.chunks = [] ∨ bufferSize ≤ 1 ∨ ArrivesWell bufferSize r a := by
  have htext : r.text.length = r.head.length + r.body.length := List.length_append
  have hpos := List.length_pos_of_ne_nil (text_ne_nil (r := r))
  by_cases hnone : a.chunks = []
  · refine iff_of_true ⟨fun h => ?_, fun text h => ?_⟩ (.inl hnone)
    · rw [hnone] at h
      exact absurd h.symm text_ne_nil
    · rw [wtHttpReadRequest, hnone, recvLoop, finishReading] at h
      split at h <;> simp at h
  by_cases hsmall : bufferSize ≤ 1
  · refine iff_of_true ⟨fun _ h => by omega, fun text h => ?_⟩ (.inr (.inl hsmall))
    obtain ⟨chunk, chunks, hchunks⟩ := List.exists_cons_of_ne_nil hnone
    rw [wtHttpReadRequest, hchunks, recvLoop, if_neg (by simp; omega), finishReading] at h
    simp at h
  rw [or_iff_right hnone, or_iff_right hsmall]
  have hcome : a.chunks.flatten ≠ [] := (Arrival.boundary_all hnone).ne_nil a.nonempty
  have hsent := a.sent.length_le
  have hreturned : ∀ text : Bytes, text ≠ [] → finishReading text = .returned text := fun text h =>
    if_neg h
  have hroom : ([] : Bytes).length + 1 < bufferSize := by
    rw [List.length_nil]
    omega
  rcases @recvLoop_cases bufferSize a.closes [] a.chunks a.nonempty hroom with
    ⟨p, hp, hlt, hreceived, hfirst, hloop⟩ | ⟨hquiet, hloop⟩
  · -- a check stops the loop
    have hprefix := a.boundary_le hp
    have hresult : wtHttpReadRequest bufferSize a.closes a.chunks = .returned p :=
      hloop.trans (hreturned p (hp.ne_nil a.nonempty))
    constructor
    · intro h
      obtain rfl : p = r.text := hprefix.eq_of_length_le (htext ▸ h.never_short p hresult)
      have hall : a.chunks.flatten = r.text :=
        a.sent.eq_of_length_le (by simpa using hp.le.length_le)
      refine ⟨going_iff.mpr fun q hq hne => hfirst q hq ?_, fun _ => ⟨by omega, .inl ?_⟩,
        fun h => absurd hall h⟩
      · have hq' := a.boundary_le hq
        exact Nat.lt_of_le_of_ne hq'.length_le fun heq => hne (hq'.eq_of_length heq)
      · exact seemsComplete_body.mpr hreceived
    · intro h
      obtain rfl : p = r.text := by
        by_contra hne
        rw [going_iff.mp h.going p hp hne] at hreceived
        cases hreceived
      refine ⟨fun _ _ => hresult, fun text htext' => ?_⟩
      rw [hresult] at htext'
      cases htext'
      exact htext.ge
  · rw [List.nil_append] at hloop
    by_cases hopen : a.chunks.flatten.length + 1 < bufferSize ∧ a.closes = false
    · -- the last `recv` waits
      have hresult : wtHttpReadRequest bufferSize a.closes a.chunks = .blocked :=
        hloop.trans (if_pos hopen)
      constructor
      · intro h
        have hcut : a.chunks.flatten ≠ r.text := fun hall => by
          have hwhole := h.whole hall (hall ▸ Nat.lt_of_succ_lt hopen.1)
          rw [hresult] at hwhole
          cases hwhole
        refine ⟨going_iff.mpr fun p hp _ => hquiet p hp ?_, fun hall => absurd hall hcut,
          fun _ => ⟨hopen.2, hopen.1⟩⟩
        have hle := hp.le.length_le
        rw [List.nil_append] at hle
        omega
      · intro h
        refine ⟨fun hall hfits => ?_, fun text htext' => ?_⟩
        · obtain ⟨-, hseems | hcloses | hfull⟩ := h.complete hall
          · have hreceived := seemsComplete_body.mp hseems
            rw [← hall, hquiet _ (Arrival.boundary_all hnone) hopen.1] at hreceived
            cases hreceived
          · rw [hopen.2] at hcloses
            cases hcloses
          · have hroom := hopen.1
            rw [hall] at hroom
            omega
        · rw [hresult] at htext'
          cases htext'
    · have htaken : a.chunks.flatten.take (bufferSize - 1) ≠ [] := by
        intro hnil
        have hlen := congrArg List.length hnil
        rw [List.length_take, List.length_nil] at hlen
        have hcome' := List.length_pos_of_ne_nil hcome
        omega
      have hresult : wtHttpReadRequest bufferSize a.closes a.chunks =
          .returned (a.chunks.flatten.take (bufferSize - 1)) :=
        hloop.trans ((if_neg hopen).trans (hreturned _ htaken))
      constructor
      · intro h
        have hshort := h.never_short _ hresult
        rw [List.length_take, ← htext] at hshort
        have hall : a.chunks.flatten = r.text := a.sent.eq_of_length_le (by omega)
        refine ⟨going_iff.mpr fun p hp hne => hquiet p hp ?_, fun _ => ⟨by omega, ?_⟩,
          fun h => absurd hall h⟩
        · have hp' := a.boundary_le hp
          have : p.length < r.text.length :=
            Nat.lt_of_le_of_ne hp'.length_le fun heq => hne (hp'.eq_of_length heq)
          omega
        · by_cases hclosed : a.closes = true
          · exact .inr (.inl hclosed)
          · rw [hall] at hopen
            refine .inr (.inr ?_)
            by_contra hne
            exact hopen ⟨by omega, Bool.eq_false_of_not_eq_true hclosed⟩
      · intro h
        have hall : a.chunks.flatten = r.text := by
          by_contra hcut
          exact hopen ⟨(h.cut hcut).2, (h.cut hcut).1⟩
        have hfits := (h.complete hall).1
        have htake : a.chunks.flatten.take (bufferSize - 1) = r.text := by
          rw [hall]
          exact List.take_of_length_le (by omega)
        rw [htake] at hresult
        refine ⟨fun _ _ => hresult, fun text htext' => ?_⟩
        rw [hresult] at htext'
        cases htext'
        exact htext.ge

end whole

/-- The head of a request whose header is spelt in lower case. -/
def lowerCaseHead : Bytes := bytes "POST /api/message HTTP/1.1\r\ncontent-length: 2\r\n\r\n"

theorem exists_lowerCase : ∃ r : HttpRequest, r.head = lowerCaseHead ∧ r.body = bytes "\x7b\x7d" := by
  let header : HttpHeader :=
    ⟨bytes "content-length", bytes " 2", by decide +kernel, by decide +kernel⟩
  have hlength : header.IsLength := by
    unfold HttpHeader.IsLength
    decide
  have hagree : ∀ other ∈ [header], other.IsLength → other.Says (bytes "\x7b\x7d").length := by
    intro other hother _
    rw [List.mem_singleton.mp hother]
    exact ⟨bytes " ", [], by decide +kernel, by decide⟩
  exact ⟨⟨bytes "POST /api/message HTTP/1.1", [header], bytes "\x7b\x7d", by decide +kernel,
    ⟨header, List.mem_singleton_self _, hlength⟩, hagree⟩, rfl, rfl⟩

/-- The body comes in a chunk of its own. -/
theorem not_readWhole : ¬ ∀ (bufferSize : Nat) (r : HttpRequest) (a : Arrival r),
    ReadWhole bufferSize r a := by
  intro hall
  obtain ⟨r, hhead, hbody⟩ := exists_lowerCase
  have hne : [] ∉ [r.head, r.body] := by
    rw [hhead, hbody]
    decide
  have hsent : [r.head, r.body].flatten = r.text := by simp [HttpRequest.text]
  have hwhole : r.text.length < 100 →
      wtHttpReadRequest 100 false [r.head, r.body] = .returned r.text :=
    (hall 100 r ⟨[r.head, r.body], false, hne, hsent ▸ List.prefix_refl _⟩).whole hsent
  rw [HttpRequest.text, hhead, hbody] at hwhole
  exact absurd (hwhole (by decide)) (by decide +kernel)

end WovenTeam
