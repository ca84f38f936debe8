import WovenTeam.Roomd.TokenLog

/-!
# Lines that mention no token

The readers of tokens and hosts take a line for theirs where the text of the schema member stands
anywhere in it. No record that the daemon prints has that text but those of the three endpoints
that mean it, and none of them has it twice; what is left are the lines of clients.
-/

namespace WovenTeam

open CText QuotedText LineReader

/-! ## Keys that end in an `a` -/

/-- What stands at the end of the text read so far: an `a`, an `a` and a quote, or the end of a key
that ends in an `a`, which is `found` for good. -/
inductive KeyEnd where
  | other
  | letter
  | quoted
  | found
  deriving DecidableEq

def KeyEnd.step (q : KeyEnd) (b : UInt8) : KeyEnd :=
  match q with
  | found => found
  | letter => if b = 97 then letter else if b = quote then quoted else other
  | quoted => if b = colon then found else if b = 97 then letter else other
  | other => if b = 97 then letter else other

/-- The text leads from these ends to those. -/
def Leads (ends : List KeyEnd) (text : Bytes) (ends' : List KeyEnd) : Prop :=
  ∀ q ∈ ends, text.foldl KeyEnd.step q ∈ ends'

instance decidableLeads (ends : List KeyEnd) (text : Bytes) (ends' : List KeyEnd) :
    Decidable (Leads ends text ends') :=
  inferInstanceAs (Decidable (∀ q ∈ ends, text.foldl KeyEnd.step q ∈ ends'))

/-- No key that ends in an `a`. -/
def KeyEnd.open : List KeyEnd := [.other, .letter, .quoted]

section leads

variable {ends ends' ends'' : List KeyEnd} {s t : Bytes}

theorem Leads.append (hs : Leads ends s ends') (ht : Leads ends' t ends'') :
    Leads ends (s ++ t) ends'' := by
  intro q hq
  rw [List.foldl_append]
  exact ht _ (hs q hq)

theorem foldl_found (t : Bytes) : t.foldl KeyEnd.step .found = .found := by
  induction t with
  | nil => rfl
  | cons b t ih => exact ih

theorem found_of_sub {text : Bytes} (h : bytes "a\":" <:+: text) (q : KeyEnd) :
    text.foldl KeyEnd.step q = .found := by
  obtain ⟨s, t, rfl⟩ := h
  rw [List.foldl_append, List.foldl_append]
  have hkey : (bytes "a\":").foldl KeyEnd.step (s.foldl KeyEnd.step q) = .found := by
    cases s.foldl KeyEnd.step q <;> rfl
  rw [hkey, foldl_found]

theorem not_infix_of_leads (h : Leads [.other] t KeyEnd.open) : ¬ bytes "a\":" <:+: t := by
  intro hsub
  have hfound := h .other (List.mem_singleton_self _)
  rw [found_of_sub hsub] at hfound
  exact absurd hfound (by decide)

/-- A part of a text without such a key has none either. -/
theorem Leads.take (h : Leads ends t KeyEnd.open) (n : Nat) :
    Leads ends (t.take n) KeyEnd.open := by
  intro q hq
  have hwhole := h q hq
  rw [← List.take_append_drop n t, List.foldl_append] at hwhole
  have hall : ∀ q : KeyEnd, q ≠ .found → q ∈ KeyEnd.open := by
    intro q hq
    cases q <;> first | decide | exact absurd rfl hq
  refine hall _ fun hfound => ?_
  rw [hfound, foldl_found] at hwhole
  exact absurd hwhole (by decide)

/-- The ends outside of a key. -/
def KeyEnd.inside : List KeyEnd := [.other, .letter]

theorem step_inside {b : UInt8} (hb : b ≠ quote) {q : KeyEnd} (hq : q ∈ KeyEnd.inside) :
    q.step b ∈ KeyEnd.inside := by
  have hboth : ∀ letter : Prop, [Decidable letter] →
      (if letter then KeyEnd.letter else KeyEnd.other) ∈ KeyEnd.inside := by
    intro letter _
    split <;> decide
  rcases List.mem_pair.mp hq with rfl | rfl
  · exact hboth _
  · rw [KeyEnd.step, if_neg hb]
    split <;> decide

theorem step_backslash {q : KeyEnd} (hq : q ∈ KeyEnd.inside) (b : UInt8) :
    (q.step backslash).step b ∈ KeyEnd.inside := by
  have hback : q.step backslash = .other := by
    rcases List.mem_pair.mp hq with rfl | rfl <;> decide
  rw [hback, KeyEnd.step]
  split <;> decide

/-- An escaped text has no quote behind an `a`. -/
theorem leads_escaped (h : Escaped t) : Leads KeyEnd.inside t KeyEnd.inside := by
  induction h with
  | nil => exact fun _ hq => hq
  | byte hquote _ _ _ ih => exact fun q hq => ih _ (step_inside hquote hq)
  | escape _ _ ih => exact fun q hq => ih _ (step_backslash hq _)

theorem leads_unquoted (h : quote ∉ t) : Leads KeyEnd.inside t KeyEnd.inside := by
  induction t with
  | nil => exact fun _ hq => hq
  | cons b t ih =>
    rw [List.mem_cons, not_or] at h
    exact fun q hq => ih h.2 _ (step_inside (Ne.symm h.1) hq)

end leads

/-! ## The record of a scan -/

section scan

theorem leads_escapedOr (text : Bytes) (size : Nat) :
    Leads KeyEnd.inside (escapedOr text size) KeyEnd.inside := by
  unfold escapedOr
  split
  · rename_i escaped _
    exact leads_escaped escaped.escaped
  · exact fun _ hq => hq

theorem leads_decimalNat (n : Nat) : Leads KeyEnd.inside (decimalNat n) KeyEnd.inside :=
  leads_unquoted (unquoted_decimal n).1

theorem leads_hitPiece (first : Bool) (pattern : Bytes × Nat) :
    Leads KeyEnd.open (hitPiece first pattern) KeyEnd.open := by
  have hstart : Leads KeyEnd.open (if first then [] else [comma]) KeyEnd.open := by
    cases first <;> decide
  have hopen : Leads KeyEnd.open (bytes "\x7b\"pattern\":\"") KeyEnd.inside := by decide
  have hcount : Leads KeyEnd.inside (bytes "\",\"count\":") KeyEnd.inside := by decide
  have hclose : Leads KeyEnd.inside (bytes "\x7d") KeyEnd.open := by decide
  exact ((((hstart.append hopen).append (leads_escapedOr _ _)).append hcount).append
    (leads_decimalNat _)).append hclose

theorem leads_patternHits (patterns : List (Bytes × Nat)) :
    Leads KeyEnd.inside (patternHitsText patterns) KeyEnd.open := by
  refine patternHits_induction (P := fun hits => Leads KeyEnd.inside hits KeyEnd.open) (by decide)
    (fun hits first pattern room h => ?_) (fun hits room h => ?_) patterns
  · exact h.append ((leads_hitPiece first pattern).take _)
  · have hclose : Leads KeyEnd.open (bytes "]") KeyEnd.open := by decide
    exact h.append (hclose.take _)

theorem leads_scan (mode : WtDeliverableMode) (taskId deliv scanId source : Literal) (scan : Scan)
    (now : Int) : ∃ rest, secretScanText mode taskId deliv scanId source scan now =
      secretScanHead ++ rest ∧ Leads [.other] rest KeyEnd.open := by
  refine ⟨_, rfl, ?_⟩
  have h1 : Leads [.other] (bytes "\"scanId\":\"") KeyEnd.inside := by decide
  have h2 : Leads KeyEnd.inside (bytes "\",\"deliverableId\":\"") KeyEnd.inside := by decide
  have h3 : Leads KeyEnd.inside (bytes "\",\"taskId\":\"") KeyEnd.inside := by decide
  have h4 : Leads KeyEnd.inside (bytes "\",\"scannedPath\":\"") KeyEnd.inside := by decide
  have h5 : Leads KeyEnd.inside (bytes "\",\"matched\":") KeyEnd.inside := by decide
  have h6 : Leads KeyEnd.inside (if scan.matched then bytes "true" else bytes "false")
      KeyEnd.inside := by
    split <;> decide
  have h7 : Leads KeyEnd.inside (bytes ",\"hitCount\":") KeyEnd.inside := by decide
  have h8 : Leads KeyEnd.inside (bytes ",\"patternHits\":") KeyEnd.inside := by decide
  have h9 : Leads KeyEnd.open (bytes ",\"packagingMode\":\"") KeyEnd.inside := by decide
  have h10 : Leads KeyEnd.inside (bytes "\",\"createdAtUnixMs\":") KeyEnd.inside := by decide
  have h11 : Leads KeyEnd.inside (bytes "\x7d") KeyEnd.open := by decide
  have hliteral (v : Literal) := leads_escaped v.escaped
  have hid := ((h1.append (hliteral scanId)).append h2).append (hliteral deliv)
  have hids := (hid.append h3).append (hliteral taskId)
  have hpath := (((hids.append h4).append (hliteral source)).append h5).append h6
  have hhits := (((hpath.append h7).append (leads_decimalNat scan.hitCount)).append h8).append
    (leads_patternHits scan.patterns)
  exact (((hhits.append h9).append (hliteral (wtDeliverableModeToString mode))).append h10).append
    (leads_unquoted (unquoted_decimal now).1) |>.append h11

/-- The record of a scan mentions its own schema only. -/
theorem unmentioned_scan {mode : WtDeliverableMode} {taskId deliv scanId source : Literal}
    {scan : Scan} {now : Int} {schema : String}
    (hcomma : comma ∉ marker (bytes "schema") (bytes schema))
    (hschema : ¬ marker (bytes "schema") (bytes schema) <:+: secretScanHead) :
    lineMentionsSchema (secretScanText mode taskId deliv scanId source scan now ++ [newline])
      schema = false := by
  obtain ⟨rest, htext, hrest⟩ := leads_scan mode taskId deliv scanId source scan now
  obtain ⟨front, hfront⟩ : ∃ front, secretScanHead = front ++ [comma] :=
    ⟨bytes "\x7b\"schema\":\"woventeam.secret_scan.v0.1\"", by decide⟩
  have hkey : bytes "a\":" <:+: marker (bytes "schema") (bytes schema) :=
    ⟨bytes "\"schem", quoted (bytes schema), rfl⟩
  have hline : Leads [.other] (rest ++ [newline]) KeyEnd.open :=
    hrest.append (by decide : Leads KeyEnd.open [newline] KeyEnd.open)
  rw [← Bool.not_eq_true, lineMentionsSchema, strstr_isSome_iff, htext, hfront, List.append_assoc,
    List.append_assoc, List.singleton_append, infix_append_cons hcomma]
  rintro (hsub | hsub)
  · refine hschema (hsub.trans ?_)
    rw [hfront]
    exact (List.prefix_append _ _).isInfix
  · exact not_infix_of_leads hline (hkey.trans hsub)

end scan

/-! ## The lines of the requests -/

theorem WorkRecord.harmless {record : Members} (h : WorkRecord record) :
    Harmless (recordLine record) := .of_unmentioned h.mentions.1 h.mentions.2

theorem OfSchema.unmentioned {schema other : String} {record : Members} (h : OfSchema schema record)
    (hother : isPlain (bytes other) = true) (hne : bytes schema ≠ bytes other) :
    lineMentionsSchema (recordLine record) other = false := by
  rw [← Bool.not_eq_true]
  exact fun hmentions => hne (h.mentions (isPlain_iff.mp hother) hmentions)

/-- What the request makes of tokens. -/
inductive ApiRequest.Makes : ApiRequest → TokenEvent → Prop
  | issue {config : WtConfig} {request : Bytes} {source : TokenSource} {made issuedAt : Long}
      {issued : Issued} (hread : readIssue config (bearerBody request) (makeToken made source) =
        some issued.toIssue) :
      Makes (.authToken config request source made issuedAt) (.issue issued issuedAt)
  | revoke {request tokenId : Bytes} {now : Long}
      (hread : wtJsonReadString (bearerBody request) "tokenId" 64 = .ok tokenId) :
      Makes (.authTokenRevoke request now) (.revoke (reread tokenId))

theorem decodes_bytesToHex (raw : Bytes) : Decodes (bytesToHex raw) := by
  intro b hb
  obtain ⟨d, -, hb⟩ := List.mem_flatMap.mp hb
  have hd := d.toNat_lt
  have hhigh : (d >>> 4).toNat < 16 := by
    rw [UInt8.toNat_shiftRight]
    have := Nat.shiftRight_eq_div_pow d.toNat 4
    simp at this ⊢
    omega
  have hlow : (d &&& 0x0f).toNat < 16 := by
    rw [UInt8.toNat_and]
    exact Nat.lt_succ_of_le Nat.and_le_right
  exact decodes_hex hhigh hlow b hb

theorem decodes_snprintf {text : Bytes} (h : Decodes text) (size : Nat) :
    Decodes (snprintf size text) := fun b hb => h b (List.mem_of_mem_take hb)

theorem makeToken_id (made : Long) (source : TokenSource) :
    Decodes (makeToken made source).2 ∧ (makeToken made source).2.length < 64 := by
  have hdecodes (s : String) (n : Int) (rest : Bytes) (hs : Decodes (bytes s))
      (hrest : Decodes rest) : Decodes (bytes s ++ decimal n ++ bytes "_" ++ rest) :=
    decodes_append (decodes_append (decodes_append hs (decodes_decimal n)) (by decide)) hrest
  cases source with
  | random token id =>
    refine ⟨decodes_snprintf ?_ 64, snprintf_length_lt _ (by decide)⟩
    exact hdecodes "tok_" made _ (by decide) (decodes_bytesToHex _)
  | unavailable seconds pid =>
    refine ⟨decodes_snprintf ?_ 64, snprintf_length_lt _ (by decide)⟩
    refine decodes_append (decodes_append ?_ (by decide)) (decodes_decimal _)
    exact hdecodes "tok_" made _ (by decide) (decodes_decimal _)

/-- What the endpoint issues is well formed. -/
theorem readIssue_issued {config : WtConfig} {body : Bytes} {made : Long} {source : TokenSource}
    {issue : Issue} (h : readIssue config body (makeToken made source) = some issue) :
    ∃ issued : Issued, issued.toIssue = issue := by
  unfold readIssue at h
  dsimp only at h
  split at h
  · cases h
  · rename_i hrole
    cases h
    obtain ⟨hdecodes, hshort⟩ := makeToken_id made source
    exact ⟨⟨_, by tauto, hdecodes, hshort⟩, rfl⟩

section line

variable {r : ApiRequest} {ledger after : Ledger} {line : Bytes} {events : List TokenEvent}

/-- A line is none about tokens, or what its request makes of them. -/
theorem ApiRequest.Line.token (h : r.Line ledger line)
    (hclient : ∀ line ∈ r.clientLines ledger, Harmless line) :
    NoTokenEvent line ∨ ∃ event, event.Prints line ∧ r.Makes event := by
  cases h with
  | work hrecord => exact .inl hrecord.work.harmless.toNoTokenEvent
  | client hline => exact .inl (hclient line hline).toNoTokenEvent
  | review => exact .inl (StoreEvent.work _).harmless.toNoTokenEvent
  | issue hread hrecord =>
    obtain ⟨issued, rfl⟩ := readIssue_issued hread
    exact .inr ⟨.issue issued _, .issue hrecord, .issue hread⟩
  | revoke hread hescape => exact .inr ⟨_, .revoke _ hescape, .revoke hread⟩
  | host =>
    exact .inl (.of_unmentioned
      ((⟨rfl, rfl⟩ : OfSchema "woventeam.host_event.v0.1" _).unmentioned rfl (by decide)))
  | scan => exact .inl (.of_unmentioned (unmentioned_scan (by decide) (by decide)))

/-- A request adds to the log what it makes. -/
theorem TokenLog.extends (hlog : TokenLog ledger events) (h : r.Extends ledger after)
    (hclient : ∀ line ∈ r.clientLines ledger, Harmless line) :
    ∃ made, TokenLog after (events ++ made) ∧ ∀ event ∈ made, r.Makes event := by
  obtain ⟨lines, hlines, rfl⟩ := h
  induction lines using List.reverseRecOn with
  | nil => exact ⟨[], by simpa using hlog, by simp⟩
  | append_singleton lines line ih =>
    obtain ⟨made, hmade, hevents⟩ := ih fun l hl => hlines l (List.mem_append_left _ hl)
    rw [← List.append_assoc]
    rcases (hlines line (by simp)).token hclient with hother | ⟨event, hprints, hmakes⟩
    · exact ⟨made, hmade.other hother, hevents⟩
    · refine ⟨made ++ [event], ?_, fun e he => ?_⟩
      · rw [← List.append_assoc]
        exact hmade.event hprints
      · rcases List.mem_append.mp he with he | he
        · exact hevents e he
        · exact List.mem_singleton.mp he ▸ hmakes

/-- The requests that mean the records of tokens and hosts. -/
def ApiRequest.concernsAccess : ApiRequest → Bool
  | authToken .. | authTokenRevoke .. | hostCapabilities .. => true
  | _ => false

theorem ApiRequest.Line.harmless (h : r.Line ledger line) (hr : r.concernsAccess = false)
    (hclient : ∀ line ∈ r.clientLines ledger, Harmless line) : Harmless line := by
  cases h with
  | work hrecord => exact hrecord.work.harmless
  | client hline => exact hclient line hline
  | review => exact (StoreEvent.work _).harmless
  | scan =>
    exact .of_unmentioned (unmentioned_scan (by decide) (by decide))
      (unmentioned_scan (by decide) (by decide))
  | _ => cases hr

end line

end WovenTeam
