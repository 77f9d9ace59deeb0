import RequestBus.Proofs.Dictionary
import RequestBus.Proofs.Text.Order
import RequestBus.Proofs.Wire.Reply
import RequestBus.Wire.Codec

namespace RequestBus

namespace Headers

/-- The content type that headers give, under whatever spelling of its name: of several the one
whose key is the least in bytes counts, and without any it is JSON. -/
inductive GivesType (headers : Headers) : String → Prop
  | named {key value : String} (member : (key, value) ∈ headers.entries)
      (names : Text.sameIgnoringCase key contentType = true)
      (least : ∀ e ∈ headers.entries, Text.sameIgnoringCase e.1 contentType = true →
        Utf8.encode key ≤ Utf8.encode e.1) : GivesType headers value
  | unnamed (absent : ∀ e ∈ headers.entries, Text.sameIgnoringCase e.1 contentType = false) :
      GivesType headers jsonType

theorem givesType_lookup (headers : Headers) :
    headers.GivesType ((headers.lookup contentType).getD jsonType) := by
  cases found : headers.lookup contentType with
  | none => exact .unnamed (Dictionary.find?_eq_none found)
  | some value =>
    obtain ⟨key, member, names, least⟩ := Dictionary.find?_eq_some found
    exact .named member names fun e he same => Utf8.encode_le (least e he same)

def isFree (key : String) : Bool :=
  !(Text.sameIgnoringCase key contentType || Text.sameIgnoringCase key contentLength)

end Headers

namespace Response

open Headers Wire

def typeOnWire (r : Response) : String := (r.header contentType).getD jsonType

def received (r : Response) : Response := { r with headers := readHeaders (replyHeaders r) }

theorem headerText_nat (n : Nat) : headerText (.nat n) = some (Decimal.natText n) := by
  rw [Decimal.natText, ← Json.write_nat]
  rfl

theorem free_ne {key : String} (free : isFree key = true) :
    key ≠ contentType ∧ key ≠ contentLength := by
  constructor <;> rintro rfl <;> revert free <;> decide

theorem mem_received {r : Response} {key value : String} :
    (key, value) ∈ r.received.headers.entries ↔
      (key = contentType ∧ value = r.typeOnWire) ∨
      (key = contentLength ∧ value = Decimal.natText r.body.length) ∨
      ((key, value) ∈ r.headers.entries ∧ isFree key = true) := by
  have differ : contentType ≠ contentLength := by decide
  simp only [received, readHeaders, Dictionary.mem_filterMap, replyHeaders, Dictionary.mem_insert,
    Dictionary.mem_filter, Prod.mk.injEq]
  constructor
  · rintro ⟨v, ⟨rfl, rfl⟩ | ⟨⟨rfl, rfl⟩ | ⟨⟨text, ⟨member, free⟩, same⟩, _⟩, _⟩, shown⟩
    · exact .inr (.inl ⟨rfl, (Option.some.inj ((headerText_nat _).symm.trans shown)).symm⟩)
    · exact .inl ⟨rfl, (Option.some.inj shown).symm⟩
    · cases same
      cases shown
      exact .inr (.inr ⟨member, free⟩)
  · rintro (⟨rfl, rfl⟩ | ⟨rfl, rfl⟩ | ⟨member, free⟩)
    · exact ⟨_, .inr ⟨.inl ⟨rfl, rfl⟩, differ⟩, rfl⟩
    · exact ⟨_, .inl ⟨rfl, rfl⟩, headerText_nat _⟩
    · have other := free_ne free
      exact ⟨_, .inr ⟨.inr ⟨⟨value, ⟨member, free⟩, rfl⟩, other.1⟩, other.2⟩, rfl⟩

theorem filter_received {r : Response} (test : String → Bool) {kept : List (String × String)}
    (ascending : Ascending kept) (same : ∀ key value, (key, value) ∈ kept ↔
      (key, value) ∈ r.received.headers.entries ∧ test key = true) :
    r.received.headers.entries.filter (fun h => test h.1) = kept :=
  Ascending.eq_of_mem (r.received.headers.ascending.sublist List.filter_sublist) ascending
    fun ⟨key, value⟩ => List.mem_filter.trans (same key value).symm

theorem filter_type_received (r : Response) :
    r.received.headers.entries.filter (fun h => Text.sameIgnoringCase h.1 contentType) =
      [(contentType, r.typeOnWire)] := by
  refine filter_received (Text.sameIgnoringCase · contentType) (List.pairwise_singleton _ _)
    fun key value => ?_
  rw [List.mem_singleton, Prod.mk.injEq, mem_received]
  constructor
  · rintro ⟨rfl, rfl⟩
    exact ⟨.inl ⟨rfl, rfl⟩, Text.sameIgnoringCase_refl _⟩
  · rintro ⟨given | ⟨rfl, _⟩ | ⟨_, free⟩, names⟩
    · exact given
    · exact absurd names (by decide)
    · simp [isFree, names] at free

theorem filter_length_received (r : Response) :
    r.received.headers.entries.filter (fun h => Text.sameIgnoringCase h.1 contentLength) =
      [(contentLength, Decimal.natText r.body.length)] := by
  refine filter_received (Text.sameIgnoringCase · contentLength) (List.pairwise_singleton _ _)
    fun key value => ?_
  rw [List.mem_singleton, Prod.mk.injEq, mem_received]
  constructor
  · rintro ⟨rfl, rfl⟩
    exact ⟨.inr (.inl ⟨rfl, rfl⟩), Text.sameIgnoringCase_refl _⟩
  · rintro ⟨⟨rfl, _⟩ | given | ⟨_, free⟩, names⟩
    · exact absurd names (by decide)
    · exact given
    · simp [isFree, names] at free

theorem filter_free_received (r : Response) :
    r.received.headers.entries.filter (fun h => isFree h.1) =
      r.headers.entries.filter fun h => isFree h.1 := by
  refine filter_received isFree (r.headers.ascending.sublist List.filter_sublist)
    fun key value => ?_
  rw [List.mem_filter, mem_received]
  constructor
  · rintro ⟨member, free⟩
    exact ⟨.inr (.inr ⟨member, free⟩), free⟩
  · rintro ⟨⟨rfl, _⟩ | ⟨rfl, _⟩ | other, free⟩
    · exact absurd rfl (free_ne free).1
    · exact absurd rfl (free_ne free).2
    · exact other

theorem replyHeaders_received (r : Response) : replyHeaders r.received = replyHeaders r := by
  have type : r.received.header contentType = some r.typeOnWire :=
    Dictionary.find?_of_filter (Text.sameIgnoringCase · contentType) r.filter_type_received
  have others : (r.received.headers.filter fun h => isFree h.1) =
      r.headers.filter fun h => isFree h.1 := Dictionary.ext r.filter_free_received
  unfold isFree at others
  simp only [replyHeaders, others, type, Option.getD_some]
  rfl

end Response

namespace Protocol

open Headers

theorem readReply_writeReply (p : Protocol) {r : Response}
    (short : r.body.length < Json.wordLimit) : p.readReply (p.writeReply r) = .ok r.received := by
  cases p with
  | amqp => exact Wire.Flat.readReply_writeReply short
  | mqtt => exact Wire.Framed.readReply_writeReply short

theorem writeReply_received (p : Protocol) (r : Response) :
    p.writeReply r.received = p.writeReply r := by
  have headers := r.replyHeaders_received
  cases p with
  | amqp =>
    simp only [writeReply, Wire.Flat.writeReply, headers]
    rfl
  | mqtt =>
    simp only [writeReply, Wire.Framed.writeReply, headers]
    rfl

/-- Over either transport a reply comes back with its id, status and body, with one content type
and one length among its headers and all others unchanged, and it is written as before. The body
is one that memory can hold: its length stands in a header, as a machine word. -/
theorem reply_survives (p : Protocol) (r : Response) (short : r.body.length < Json.wordLimit) :
    ∃ back type, p.readReply (p.writeReply r) = .ok back ∧
      back.id = r.id ∧ back.status = r.status ∧ back.body = r.body ∧
      r.headers.GivesType type ∧
      back.headers.entries.filter (fun h => Text.sameIgnoringCase h.1 contentType) =
        [(contentType, type)] ∧
      back.headers.entries.filter (fun h => Text.sameIgnoringCase h.1 contentLength) =
        [(contentLength, Decimal.natText r.body.length)] ∧
      back.headers.entries.filter (fun h => isFree h.1) =
        r.headers.entries.filter (fun h => isFree h.1) ∧
      p.writeReply back = p.writeReply r :=
  ⟨r.received, r.typeOnWire, p.readReply_writeReply short, rfl, rfl, rfl,
    givesType_lookup r.headers, r.filter_type_received, r.filter_length_received,
    r.filter_free_received, p.writeReply_received r⟩

/-- The content type goes by two spellings; the one in capitals is the least. -/
theorem reply_survives_two_spellings :
    let r : Response := ⟨"r", 404, (Dictionary.empty.insert "content-type" "a").insert
      "CONTENT-TYPE" "b", [0x7B, 0x7D]⟩
    r.body.length < Json.wordLimit ∧ ∃ back, Protocol.mqtt.readReply (Protocol.mqtt.writeReply r) =
        .ok back ∧ back.id = "r" ∧ back.status = 404 ∧ back.body = [0x7B, 0x7D] ∧
      back.headers.entries.filter (fun h => Text.sameIgnoringCase h.1 contentType) =
        [("Content-Type", "b")] ∧
      Protocol.mqtt.writeReply back = Protocol.mqtt.writeReply r := by
  intro r
  have short : r.body.length < Json.wordLimit := by decide
  obtain ⟨back, type, read, id, status, body, gives, named, _, _, again⟩ :=
    reply_survives .mqtt r short
  have capitals : type = "b" := by
    cases gives with
    | unnamed absent => exact absurd (absent ("content-type", "a") (by decide)) (by decide)
    | @named key value member names least =>
      have entries : r.headers.entries = [("CONTENT-TYPE", "b"), ("content-type", "a")] := by
        decide
      rw [entries, List.mem_cons, List.mem_singleton] at member
      rcases member with same | same
      · exact (Prod.mk.inj same).2
      · have below := least ("CONTENT-TYPE", "b") (by decide) (by decide)
        rw [(Prod.mk.inj same).1] at below
        exact absurd below (by decide)
  exact ⟨short, back, read, id, status, body, capitals ▸ named, again⟩

end Protocol

end RequestBus
