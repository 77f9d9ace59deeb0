import RequestBus.Proofs.Json.Skipping
import RequestBus.Proofs.Message.Headers
import RequestBus.Proofs.Wire.Reply

namespace RequestBus

namespace Request

open Text

/-- What a request that was sent arrives as. -/
inductive Arrives (r : Request) : Except Malformed Request → Prop
  | whole {version : Option String} (id : allBlank r.id = false)
      (method : allBlank r.method = false) (path : allBlank r.path = false)
      (asks : r.headers.AsksVersion version) :
      r.Arrives (.ok { r with method := upper (trim r.method), path := trim r.path, version })
  | noId (blank : allBlank r.id = true) : r.Arrives (.error (.missing "headers.requestId"))
  | noMethod (id : allBlank r.id = false) (blank : allBlank r.method = true) :
      r.Arrives (.error (.missing "message.method"))
  | noPath (id : allBlank r.id = false) (method : allBlank r.method = false)
      (blank : allBlank r.path = true) : r.Arrives (.error (.missing "message.path"))

/-- A request as it arrives: its id is not blank, its method and path have no blanks around them
and more than that in between, its method is in capitals, and its version is the one that its
headers ask for. -/
structure Normal (r : Request) : Prop where
  id : allBlank r.id = false
  method : allBlank r.method = false
  capitals : upper (trim r.method) = r.method
  path : allBlank r.path = false
  trimmed : trim r.path = r.path
  version : r.headers.AsksVersion r.version

end Request

namespace Wire

def headerValues (headers : Headers) : Dictionary Json.Value :=
  headers.filterMap fun v => some (.text v)

theorem entries_headerValues (headers : Headers) : (headerValues headers).entries =
    headers.entries.map fun h => (h.1, .text h.2) := by
  simp [headerValues, Dictionary.filterMap]

theorem readHeaders_headerValues (headers : Headers) :
    readHeaders (headerValues headers) = headers := by
  refine Dictionary.ext ?_
  simp [readHeaders, headerValues, Dictionary.filterMap, headerText]

def Parts.ofRequest (r : Request) : Parts :=
  { method := some (some r.method)
    path := some (some r.path)
    headers := some (some (headerValues r.headers))
    body := some (some (Base64.encode r.body)) }

theorem require_eq (field : String) (text : String) : require field (some text) =
    if Text.allBlank text then .error (.missing field) else .ok text := by
  unfold require Text.given?
  cases blank : Text.allBlank text <;> simp [blank]

theorem toRequest_ofRequest (r : Request) (scope id : String) :
    (Parts.ofRequest r).toRequest scope id =
      if Text.allBlank r.method then .error (.missing (scope ++ "method"))
      else if Text.allBlank r.path then .error (.missing (scope ++ "path"))
      else .ok
        { id, method := Text.upper (Text.trim r.method), path := Text.trim r.path
          headers := r.headers, body := r.body, version := Request.versionOf r.headers } := by
  simp only [Parts.toRequest, Parts.ofRequest, Option.join_some, require_eq, readBody_encode,
    Option.map_some, Option.getD_some, readHeaders_headerValues]
  split
  · rfl
  · split <;> rfl

end Wire

namespace Wire.Framed

open Json

theorem skipValue_text (s : String) : ∀ rest, EndsNumber rest →
    skipValue (Utf8.encodeChars (writeText s) ++ rest) = .ok rest := fun rest ends =>
  skipValue_of_passes (skippable_readTextValue _ _ _ (readTextValue_written s rest ends))

theorem message_written (r : Request) (depth : Nat) :
    ReadsBack (messageRecord.read {} (depth + 2))
      (writeObject
        [ ("body", writeText (Base64.encode r.body)),
          ("headers", (Value.object (headerValues r.headers).entries).write),
          ("method", writeText r.method),
          ("path", writeText r.path) ]) (Parts.ofRequest r) := by
  have headers := readNullable_object depth (headerValues r.headers) (by
    intro e member
    rw [entries_headerValues] at member
    obtain ⟨h, _, rfl⟩ := List.mem_map.mp member
    exact readValue_text depth h.2)
  exact readsBack_record
    (.cons (readMember_field (fun p v => { p with body := some v }) rfl rfl rfl
        (readNullable_text (Base64.encode r.body)))
      (.cons (readMember_field (fun p v => { p with headers := some v }) rfl rfl rfl headers)
        (.cons (readMember_field (fun p v => { p with method := some v }) rfl rfl rfl
            (readNullable_text r.method))
          (.cons (readMember_field (fun p v => { p with path := some v }) rfl rfl rfl
              (readNullable_text r.path)) (.nil _))))) rfl

theorem content_written (r : Request) :
    readWhole (contentRecord.read none nesting) (requestContent r).bytes =
      .ok (some (Parts.ofRequest r)) := by
  have written : (requestContent r).write = writeObject
      [("message", writeObject
        [ ("body", writeText (Base64.encode r.body)),
          ("headers", (Value.object (headerValues r.headers).entries).write),
          ("method", writeText r.method),
          ("path", writeText r.path) ])] := by
    rw [requestContent, write_object, entries_headerValues]
    simp only [writtenMembers, List.map_cons, List.map_nil, write_object, write_text]
  rw [Value.bytes, written]
  exact readWhole_record
    (.cons (readMember_written rfl rfl 126 (message_written r 124)) (.nil _)) rfl

theorem frame_written (r : Request) :
    readWhole (frameRecord.read {} nesting) (writeRequest r) =
      .ok ⟨some (some (some r.id)), some (some (Base64.encode (requestContent r).bytes))⟩ := by
  rw [writeRequest, Value.bytes, write_object]
  simp only [writtenMembers, List.map_cons, List.map_nil, write_object, write_text]
  exact readWhole_record
    (.cons (readMember_field (fun d v => { d with headers := some v }) rfl rfl rfl
        (headers_written r.id 125))
      (.cons (readMember_field (fun d v => { d with content := some v }) rfl rfl rfl
          (readNullable_text _))
        (.cons (readMember_unknown rfl (skipValue_text "API_REQUEST")) (.nil _)))) rfl

theorem id_written (r : Request) :
    readWhole (idRecord.read none nesting) (writeRequest r) = .ok (some (some (some r.id))) := by
  rw [writeRequest, Value.bytes, write_object]
  simp only [writtenMembers, List.map_cons, List.map_nil, write_object, write_text]
  exact readWhole_record
    (.cons (readMember_field (fun _ v => some v) rfl rfl rfl (headers_written r.id 125))
      (.cons (readMember_unknown rfl (skipValue_text _))
        (.cons (readMember_unknown rfl (skipValue_text "API_REQUEST")) (.nil _)))) rfl

theorem content_not_blank (r : Request) :
    Text.allBlank (Base64.encode (requestContent r).bytes) = false := by
  rw [← Bool.not_eq_true]
  intro blank
  have empty := eq_nil_of_allBlank_encode blank
  rw [requestContent, Value.bytes, Value.write, List.cons_append, Utf8.encodeChars_cons] at empty
  exact Utf8.encodeChar_ne_nil _ (List.append_eq_nil_iff.mp empty).1

theorem readRequest_written (r : Request) : readRequest (writeRequest r) =
    if Text.allBlank r.id then .error (.missing "headers.requestId")
    else (Parts.ofRequest r).toRequest "message." r.id := by
  simp only [readRequest, frame_written, mapError_ok, bind, Except.bind, requireId,
    Option.join_some, require_eq, content_not_blank, Bool.false_eq_true, if_false,
    readBase64_encode, content_written, Option.getD_some]
  cases Text.allBlank r.id <;> rfl

theorem peekId_written (r : Request) : peekId (writeRequest r) =
    if Text.allBlank r.id then .error (.missing "headers.requestId") else .ok r.id := by
  simp only [peekId, id_written, mapError_ok, bind, Except.bind, requireId, Option.join_some,
    require_eq]

theorem arrives (r : Request) : r.Arrives (readRequest (writeRequest r)) := by
  rw [readRequest_written, toRequest_ofRequest]
  cases id : Text.allBlank r.id with
  | true => exact .noId id
  | false =>
    cases method : Text.allBlank r.method with
    | true => exact .noMethod id method
    | false =>
      cases path : Text.allBlank r.path with
      | true => exact .noPath id method path
      | false => exact .whole id method path (Headers.asksVersion_iff.mpr rfl)

/-- Every request that is sent arrives in its normal form, or is refused for the first of id,
method and path that is blank. It arrives unchanged just if it is in that form already. Its id is
peeked just if it is not blank. -/
theorem request_arrives (r : Request) :
    r.Arrives (readRequest (writeRequest r)) ∧
    (readRequest (writeRequest r) = .ok r ↔ r.Normal) ∧
    ∀ id, peekId (writeRequest r) = .ok id ↔ id = r.id ∧ Text.allBlank r.id = false := by
  refine ⟨arrives r, ⟨fun same => ?_, fun normal => ?_⟩, fun id => ?_⟩
  · have arrived := arrives r
    rw [same] at arrived
    generalize back : Except.ok r = result at arrived
    cases arrived with
    | whole id method path asks =>
      have fields := Except.ok.inj back
      exact ⟨id, method, (congrArg Request.method fields).symm, path,
        (congrArg Request.path fields).symm, congrArg Request.version fields ▸ asks⟩
    | _ => contradiction
  · have version := Headers.asksVersion_iff.mp normal.version
    rw [readRequest_written, toRequest_ofRequest, normal.id, normal.method, normal.path,
      normal.capitals, normal.trimmed, ← version]
    rfl
  · rw [peekId_written]
    cases blank : Text.allBlank r.id with
    | true => simp
    | false => simpa using eq_comm

end Wire.Framed

end RequestBus
