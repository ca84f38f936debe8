import WovenTeam.Lib.QuotedText
import WovenTeam.Roomd.ClientRecords
import WovenTeam.Roomd.Reroute
import WovenTeam.Roomd.RemoteReport
import WovenTeam.Roomd.AcceptedArtifact

/-!
# Records the daemon prints

A record that is printed has its schema as its first member and no other member of that name, so
it is taken for one of another schema by no reader, not even by those that look for the text of the
member anywhere in the line. `Adds` says what the endpoints do to the ledger: they put printed
records at its end.
-/

namespace WovenTeam

open CText QuotedText LineReader

/-! ## Records of a schema -/

/-- The schema is the first member, and the only one of that name. -/
structure OfSchema (schema : String) (record : Members) : Prop where
  first : record.items.take 2 = [⟨bytes "schema", [colon]⟩, ⟨bytes schema, [comma]⟩]
  only : lookup (bytes "schema") (record.items.drop 2) = none

/-- The schemas of the records about tasks, agents and shipments. -/
def workSchemas : List String :=
  ["woventeam.task_event.v0.1", "woventeam.task_package.v0.1", "woventeam.task_request.v0.1",
    "woventeam.task_usage.v0.1", "woventeam.policy_decision.v0.1", "woventeam.agent_control.v0.1",
    "woventeam.kill_event.v0.1", "woventeam.autonomy_event.v0.1", "woventeam.heartbeat.v0.1",
    "woventeam.milestone.v0.1", "woventeam.deliverable.v0.1"]

/-- A printed record of one of these schemas. -/
def WorkRecord (record : Members) : Prop := ∃ schema ∈ workSchemas, OfSchema schema record

section ofSchema

variable {schema other : String} {record : Members}

theorem OfSchema.items_eq (h : OfSchema schema record) :
    record.items =
      ⟨bytes "schema", [colon]⟩ :: ⟨bytes schema, [comma]⟩ :: record.items.drop 2 := by
  have happend := (List.take_append_drop 2 record.items).symm
  rw [h.first] at happend
  exact happend

theorem word_schema : Word (bytes "schema") := .of_head (isPlain_iff.mp rfl) rfl

/-- The text of a schema member stands only where the record's own schema is that. -/
theorem OfSchema.mentions (h : OfSchema schema record) (hother : Plain (bytes other))
    (hmentions : lineMentionsSchema (recordLine record) other = true) :
    bytes schema = bytes other := by
  rw [lineMentionsSchema, strstr_isSome_iff] at hmentions
  have hrender := marker_infix_line hmentions
  rw [marker_infix_render word_schema hother record.ok, h.items_eq] at hrender
  have honly := @hasMember_of_lookup _ (bytes other) _ h.only
  cases hdrop : record.items.drop 2 with
  | nil =>
    rw [hdrop] at hrender
    simpa [hasMember] using hrender
  | cons i items =>
    rw [hdrop] at hrender honly
    simpa [hasMember, honly, show comma ≠ colon by decide] using hrender

/-- The readers of tokens and hosts pass over the records of work. -/
theorem WorkRecord.mentions (h : WorkRecord record) :
    lineMentionsSchema (recordLine record) authTokenSchema = false ∧
      lineMentionsSchema (recordLine record) hostEventSchema = false := by
  obtain ⟨schema, hschema, hprinted⟩ := h
  have hauth : ∀ schema ∈ workSchemas, bytes schema ≠ bytes authTokenSchema ∧
      bytes schema ≠ bytes hostEventSchema := by decide
  constructor
  · rw [← Bool.not_eq_true]
    exact fun hm => (hauth schema hschema).1 (hprinted.mentions (isPlain_iff.mp rfl) hm)
  · rw [← Bool.not_eq_true]
    exact fun hm => (hauth schema hschema).2 (hprinted.mentions (isPlain_iff.mp rfl) hm)

end ofSchema

/-! ## Records without a path -/

/-- A record of work that names no artifact's path. -/
structure PathlessRecord (record : Members) : Prop where
  work : WorkRecord record
  noPath : record.Lacks (bytes "artifactPath")

/-- The check of a record whose members are known. -/
theorem PathlessRecord.of_members (schema : String) {record : Members}
    (hfirst : record.items.take 2 = [⟨bytes "schema", [colon]⟩, ⟨bytes schema, [comma]⟩])
    (honly : lookup (bytes "schema") (record.items.drop 2) = none)
    (hpath : lookup (bytes "artifactPath") record.items = none)
    (hschema : schema ∈ workSchemas := by decide) : PathlessRecord record :=
  ⟨⟨schema, hschema, hfirst, honly⟩, hpath⟩

section members

variable {schema : String} {a b : Members}

/-- A record grows by members of other names. -/
theorem PathlessRecord.append (ha : PathlessRecord a) (hschema : b.Lacks (bytes "schema"))
    (hpath : b.Lacks (bytes "artifactPath")) : PathlessRecord (a ++ b) := by
  obtain ⟨⟨schema, hmem, hprinted⟩, hlacks⟩ := ha
  have hitems : (a ++ b).items = ⟨bytes "schema", [colon]⟩ :: ⟨bytes schema, [comma]⟩ ::
      (a.items.drop 2 ++ b.items) := by
    rw [Members.items_append, hprinted.items_eq]
    rfl
  refine ⟨⟨schema, hmem, by rw [hitems]; rfl, ?_⟩, Members.Lacks.append hlacks hpath⟩
  rw [hitems]
  change lookup (bytes "schema") (a.items.drop 2 ++ b.items) = none
  rw [lookup_append, hprinted.only]
  exact hschema

theorem PathlessRecord.start {v : Literal} {hk : isPlain (bytes "schema") = true}
    {hc : closes (bytes ",") = true} (hv : v.text = bytes schema)
    (hschema : schema ∈ workSchemas := by decide) :
    PathlessRecord (str "schema" v "," hk hc) := by
  refine ⟨⟨schema, hschema, ?_, rfl⟩, lacks_str (by decide)⟩
  change [(⟨bytes "schema", [colon]⟩ : Item), ⟨v.text, bytes ","⟩] = _
  rw [hv]
  rfl

theorem PathlessRecord.start_plain {h : isPlain (bytes schema) = true}
    {hk : isPlain (bytes "schema") = true} {hc : closes (bytes ",") = true}
    (hschema : schema ∈ workSchemas := by decide) :
    PathlessRecord (str "schema" (.ofPlain schema h) "," hk hc) :=
  .start rfl hschema

end members

def StoreEvent.record (event : StoreEvent) : Members := fieldsRecord event.fields event.fieldNames

theorem StoreEvent.append_record {event : StoreEvent} {ledger ledger' : Ledger}
    (h : event.append ledger = some ledger') : ledger' = ledger ++ [recordLine event.record] :=
  event.append_eq h

/-- A record whose fields behind the schema have other names. -/
theorem WorkRecord.of_fields (schema : String) {next : Field} {rest : List Field}
    (hnames : ∀ name ∈ (next :: rest).map (·.1), bytes name ≠ bytes "schema")
    (hfields : ∀ field ∈ ("schema", FieldValue.text (bytes schema)) :: next :: rest,
      FieldName field.1)
    (hschema : schema ∈ workSchemas := by decide)
    (hescape : (bytes schema).flatMap escapePiece = bytes schema := by rfl) :
    WorkRecord (fieldsRecord (("schema", .text (bytes schema)) :: next :: rest) hfields) := by
  have hitems : (fieldsRecord (("schema", .text (bytes schema)) :: next :: rest) hfields).items =
      ⟨bytes "schema", [colon]⟩ :: ⟨bytes schema, [comma]⟩ :: fieldItems (next :: rest) := by
    change FieldValue.items (bytes "schema") [comma] (.text (bytes schema)) ++
      fieldItems (next :: rest) = _
    rw [FieldValue.items, hescape]
    rfl
  have hlookup : lookup (bytes "schema") (fieldItems (next :: rest)) = none := by
    have hnamed := lookup_fieldItems (next :: rest) "schema"
    rwa [fieldNamed_eq_none fun field hfield => hnames _ (List.mem_map_of_mem hfield)] at hnamed
  refine ⟨schema, hschema, by rw [hitems]; rfl, ?_⟩
  rw [hitems]
  exact hlookup

theorem PathlessRecord.of_fields (schema : String) {next : Field} {rest : List Field}
    (hnames : ∀ name ∈ (next :: rest).map (·.1),
      bytes name ≠ bytes "schema" ∧ bytes name ≠ bytes "artifactPath")
    (hfields : ∀ field ∈ ("schema", FieldValue.text (bytes schema)) :: next :: rest,
      FieldName field.1)
    (hschema : schema ∈ workSchemas := by decide)
    (hescape : (bytes schema).flatMap escapePiece = bytes schema := by rfl) :
    PathlessRecord (fieldsRecord (("schema", .text (bytes schema)) :: next :: rest) hfields) := by
  refine ⟨.of_fields schema (fun name hname => (hnames name hname).1) hfields hschema hescape, ?_⟩
  have hno : ∀ field ∈ ("schema", FieldValue.text (bytes schema)) :: next :: rest,
      bytes field.1 ≠ bytes "artifactPath" := by
    intro field hfield
    have hne : bytes "schema" ≠ bytes "artifactPath" := by decide
    rcases List.mem_cons.mp hfield with rfl | hfield
    · exact hne
    · exact (hnames _ (List.mem_map_of_mem hfield)).2
  have hnamed := lookup_fieldItems (("schema", .text (bytes schema)) :: next :: rest) "artifactPath"
  rwa [fieldNamed_eq_none hno] at hnamed

/-- Every record of the store is one of these. -/
theorem StoreEvent.work (event : StoreEvent) : WorkRecord event.record := by
  cases event with
  | status taskId newStatus createdBy message retryCause now =>
    have hnames : ∀ name ∈ ["taskId", "eventType", "status", "message", "retryCause", "createdBy",
        "createdAtUnixMs"], bytes name ≠ bytes "schema" := by decide
    refine .of_fields "woventeam.task_event.v0.1" (fun name hname => hnames name ?_) _
    split at hname <;> simp at hname ⊢ <;> tauto
  | _ => exact .of_fields _ (by simp only [List.map_cons, List.map_nil]; decide) _

theorem StoreEvent.pathless (event : StoreEvent)
    (h : ∀ taskId state reviewer notes artifactPath now,
      event ≠ .artifact taskId state reviewer notes artifactPath now) :
    PathlessRecord event.record := by
  cases event with
  | status taskId newStatus createdBy message retryCause now =>
    have hnames : ∀ name ∈ ["taskId", "eventType", "status", "message", "retryCause", "createdBy",
        "createdAtUnixMs"], bytes name ≠ bytes "schema" ∧ bytes name ≠ bytes "artifactPath" := by
      decide
    refine .of_fields "woventeam.task_event.v0.1" (fun name hname => hnames name ?_) _
    split at hname <;> simp at hname ⊢ <;> tauto
  | artifact => exact absurd rfl (h _ _ _ _ _ _)
  | _ => exact .of_fields _ (by simp only [List.map_cons, List.map_nil]; decide) _

/-! ## What is added -/

/-- Records of the kind are put at the end of the ledger. -/
def Adds (P : Members → Prop) (ledger after : Ledger) : Prop :=
  ∃ records : List Members, (∀ record ∈ records, P record) ∧
    after = ledger ++ records.map recordLine

section adds

variable {P Q : Members → Prop} {ledger after later : Ledger} {record : Members} {size : Nat}

theorem Adds.refl : Adds P ledger ledger := ⟨[], by simp, by simp⟩

theorem Adds.trans (h : Adds P ledger after) (h' : Adds P after later) : Adds P ledger later := by
  obtain ⟨records, hrecords, rfl⟩ := h
  obtain ⟨more, hmore, rfl⟩ := h'
  refine ⟨records ++ more, fun record hrecord => ?_, by simp⟩
  exact (List.mem_append.mp hrecord).elim (hrecords record) (hmore record)

theorem Adds.mono (h : Adds P ledger after) (himp : ∀ record, P record → Q record) :
    Adds Q ledger after := by
  obtain ⟨records, hrecords, rfl⟩ := h
  exact ⟨records, fun record hrecord => himp record (hrecords record hrecord), rfl⟩

theorem Adds.single (h : P record) : Adds P ledger (ledger ++ [recordLine record]) :=
  ⟨[record], by simpa using h, by simp⟩

/-- A record that fits its buffer is one line. -/
theorem Adds.printed (h : P record) (hfits : record.object.length + 2 ≤ size)
    (hsize : size ≤ wtTaskLedgerLineSize) :
    Adds P ledger (wtTaskAppendRecord ledger (printRecord size record)) := by
  rw [printRecord_of_fits (by omega), wtTaskAppendRecord_object ledger (by omega)]
  exact .single h

theorem Adds.event (event : StoreEvent) (happend : event.append ledger = some after)
    (h : P event.record) : Adds P ledger after := by
  rw [event.append_record happend]
  exact .single h

end adds

/-- A record is cut in its last number where it does not fit its buffer. -/
theorem snprintf_object {front : Members} {k : String} (hk : isPlain (bytes k) = true) {n : Int}
    {size : Nat} (hlen : front.object.length + (bytes k).length + 4 ≤ size) :
    ∃ record : Members, (∃ shown, record.items = front.items ++ [⟨bytes k, colon :: shown⟩]) ∧
      printRecord size (front ++ num k n "\x7d" hk) = record.object := by
  have hdigits : Unquoted (decimal n ++ bytes "\x7d") :=
    (unquoted_decimal n).append (by decide)
  let shown :=
    (decimal n ++ bytes "\x7d").take (size - (front.object.length + (bytes k).length + 4))
  have hshown : Unquoted shown :=
    ⟨fun h => hdigits.1 (List.mem_of_mem_take h), fun h => hdigits.2 (List.mem_of_mem_take h)⟩
  refine ⟨⟨front.items ++ [⟨bytes k, colon :: shown⟩], fun i hi => ?_⟩, ⟨shown, rfl⟩, ?_⟩
  · rcases List.mem_append.mp hi with hi | hi
    · exact front.ok i hi
    · rw [List.mem_singleton.mp hi]
      exact .key (isPlain_iff.mp hk) hshown
  · have hprinted : (front ++ num k n "\x7d" hk).object =
        (front.object ++ quote :: (bytes k ++ [quote, colon])) ++ (decimal n ++ bytes "\x7d") := by
      simp [Members.object, num, render, Item.render]
    have hshort : (front.object ++ quote :: (bytes k ++ [quote, colon])).length =
        front.object.length + (bytes k).length + 3 := by
      simp only [List.length_append, List.length_cons, List.length_nil]
      omega
    rw [printRecord, hprinted, snprintf, List.take_append, List.take_of_length_le (by omega),
      hshort, show size - 1 - (front.object.length + (bytes k).length + 3) =
        size - (front.object.length + (bytes k).length + 4) by omega]
    simp [Members.object, render, Item.render, shown]

end WovenTeam
