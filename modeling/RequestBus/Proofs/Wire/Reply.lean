import RequestBus.Proofs.Base64
import RequestBus.Proofs.Json.Forward
import RequestBus.Proofs.Json.Records
import RequestBus.Wire.Flat
import RequestBus.Wire.Framed

namespace RequestBus.Wire

open Utf8

theorem dropWhile_eq_self {p : α → Bool} {l : List α} (h : ∀ a ∈ l, p a = false) :
    l.dropWhile p = l := by
  cases l with
  | nil => rfl
  | cons a l => simp [h a List.mem_cons_self]

theorem trim_eq_self {s : String} (h : ∀ c ∈ s.toList, Text.isBlank c = false) :
    Text.trim s = s := by
  have back : ∀ c ∈ s.toList.reverse, Text.isBlank c = false := fun c hc =>
    h c (List.mem_reverse.mp hc)
  rw [Text.trim, Text.stripChars, dropWhile_eq_self h, dropWhile_eq_self back,
    List.reverse_reverse, String.ofList_toList]

theorem eq_nil_of_allBlank_encode {payload : Bytes}
    (blank : Text.allBlank (Base64.encode payload) = true) : payload = [] := by
  have empty : (Base64.encode payload).toList = [] := by
    refine List.eq_nil_iff_forall_not_mem.mpr fun c hc => ?_
    have isBlank := List.all_eq_true.mp blank c hc
    rw [Base64.notBlank_encode payload c hc] at isBlank
    contradiction
  have back := Base64.decode_encode payload
  rw [String.toList_eq_nil_iff.mp empty] at back
  exact (Except.ok.inj ((Base64.decode_encode []).symm.trans back)).symm

theorem readBase64_encode (field : String) (payload : Bytes) :
    readBase64 field (Base64.encode payload) = .ok payload := by
  rw [readBase64, trim_eq_self (Base64.notBlank_encode payload), Base64.decode_encode]
  rfl

theorem readBody_encode (field : String) (body : Bytes) :
    readBody field (some (Base64.encode body)) = .ok body := by
  unfold readBody
  dsimp only
  split
  · rename_i blank
    rw [eq_nil_of_allBlank_encode blank]
  · exact readBase64_encode field body

theorem readsBack_replyHeaders {r : Response} (short : r.body.length < Json.wordLimit)
    (depth : Nat) : ∀ e ∈ (replyHeaders r).entries,
      Json.ReadsBack (Json.readValue depth) e.2.write e.2 := by
  intro e member
  rcases mem_insertEntry _ _ _ e member with rfl | member
  · exact Json.readValue_nat depth short
  · rcases mem_insertEntry _ _ _ e member with rfl | member
    · exact Json.readValue_text depth _
    · obtain ⟨h, _, same⟩ := List.mem_filterMap.mp member
      cases same
      exact Json.readValue_text depth _

theorem digits_status (status : UInt16) : Json.ReadsBack (Json.readUnsigned "u16" UInt16.size)
    (Decimal.digits status.toNat) status.toNat := by
  have small := status.toNat_lt
  exact Json.readUnsigned_written "u16" small (Nat.lt_trans small (by decide))

end RequestBus.Wire

namespace RequestBus.Wire.Flat

open Json

theorem readReply_writeReply {r : Response} (short : r.body.length < wordLimit) :
    readReply (writeReply r) = .ok { r with headers := readHeaders (replyHeaders r) } := by
  have headers := readObjectValue_written 125 (replyHeaders r)
    (readsBack_replyHeaders short 125)
  have read : readWhole (replyRecord.read {} nesting) (writeReply r) =
      .ok ⟨some r.id, some (replyHeaders r), some r.status.toNat, some (Base64.encode r.body),
        some false⟩ :=
    readWhole_record
      (.cons (readMember_written rfl rfl 126 (readTextValue_written r.id))
        (.cons (readMember_written rfl rfl 126 headers)
          (.cons (readMember_written rfl rfl 126 (digits_status r.status))
            (.cons (readMember_written rfl rfl 126 (readTextValue_written (Base64.encode r.body)))
              (.cons (readMember_written rfl rfl 126 readFlag_false) (.nil _)))))) rfl
  simp only [readReply, read, mapError_ok, bind, Except.bind, readBody_encode]
  simp [pure, Except.pure]

end RequestBus.Wire.Flat

namespace RequestBus.Wire.Framed

open Json

theorem headers_written (id : String) (depth : Nat) :
    ReadsBack (headersRecord.read none (depth + 1)) (writeObject [("requestId", writeText id)])
      (some (some id)) :=
  readsBack_record (.cons (readMember_field (fun _ v => some v) rfl rfl rfl (readNullable_text id))
    (.nil _)) rfl

theorem response_written {r : Response} (short : r.body.length < wordLimit) (depth : Nat) :
    ReadsBack (responseRecord.read {} (depth + 2))
      (writeObject
        [ ("statusCode", Decimal.digits r.status.toNat),
          ("headers", (Value.object (replyHeaders r).entries).write),
          ("body", writeText (Base64.encode r.body)) ])
      ⟨some r.status.toNat, some (replyHeaders r), some (Base64.encode r.body)⟩ := by
  have headers := readObjectValue_written depth (replyHeaders r)
    (readsBack_replyHeaders short depth)
  exact readsBack_record
    (.cons (readMember_written rfl rfl (depth + 1) (digits_status r.status))
      (.cons (readMember_written rfl rfl (depth + 1) headers)
        (.cons (readMember_written rfl rfl (depth + 1) (readTextValue_written _)) (.nil _)))) rfl

theorem readReply_writeReply {r : Response} (short : r.body.length < wordLimit) :
    readReply (writeReply r) = .ok { r with headers := readHeaders (replyHeaders r) } := by
  have read : readWhole (replyRecord.read {} nesting) (writeReply r) =
      .ok ⟨some "API_RESPONSE", some (some (some r.id)),
        some ⟨some r.status.toNat, some (replyHeaders r), some (Base64.encode r.body)⟩⟩ :=
    readWhole_record
      (.cons (readMember_written rfl rfl 126 (readTextValue_written "API_RESPONSE"))
        (.cons (readMember_written rfl rfl 126 (headers_written r.id 125))
          (.cons (readMember_written rfl rfl 126 (response_written short 124)) (.nil _)))) rfl
  simp only [readReply, read, mapError_ok, bind, Except.bind, Option.getD_some, readBody_encode]
  simp [pure, Except.pure]

end RequestBus.Wire.Framed
