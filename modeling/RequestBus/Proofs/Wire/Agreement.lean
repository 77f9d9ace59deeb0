import RequestBus.Proofs.Wire.Content
import RequestBus.Wire.Framed

namespace RequestBus.Wire

open Json

/-- The fields of an object, none of them given twice, are as they should be. -/
def Lists (field? : String → Option String) (entries : List (Label × Tree))
    (P : List (String × Tree) → Prop) : Prop :=
  ∃ es, named? entries = some es ∧ Once field? es ∧ P es

theorem Lists.once {field? : String → Option String} {entries : List (Label × Tree)}
    {P : List (String × Tree) → Prop} (lists : Lists field? entries P) :
    ∀ es, named? entries = some es → Once field? es := by
  obtain ⟨es, names, once, _⟩ := lists
  intro es' names'
  exact Option.some.inj (names.symm.trans names') ▸ once

def among (names : List String) (name : String) : Option String := names.find? (· == name)

/-- An object carries a choice of id and parts. -/
def Flat.Carries (t : ObjectText) (choice : Draft) : Prop :=
  Lists field? t.entries (choice.ToldBy field?) ∧ ShallowHeaders t.entries

namespace Framed

def CarriesId (headers : List (Label × Tree)) (id : Option (Option String)) : Prop :=
  Lists (among ["requestId"]) headers fun es =>
    Tells (among ["requestId"]) es "requestId" nullableText id

def CarriesParts (message : List (Label × Tree)) (parts : Parts) : Prop :=
  Lists Parts.field? message (parts.ToldBy Parts.field?) ∧ ShallowHeaders message

def CarriesMessage (content : ObjectText) (parts : Parts) : Prop :=
  Lists (among ["message"]) content.entries fun es =>
    ∃ inner message, entryFor? (among ["message"]) es "message" = some (.object inner message) ∧
      CarriesParts message parts

/-- A frame carries a choice of id and parts: the id in its headers, the parts in its content,
which is there as base64. -/
def Carries (t : ObjectText) (choice : Flat.Draft) : Prop :=
  Lists (among ["headers", "httpRequest"]) t.entries fun es =>
    (∃ inner headers, entryFor? (among ["headers", "httpRequest"]) es "headers" =
      some (.object inner headers) ∧ CarriesId headers choice.id) ∧
    ∃ pieces content, entryFor? (among ["headers", "httpRequest"]) es "httpRequest" =
      some (.text pieces) ∧ text? pieces = some (Base64.encode content.bytes) ∧
      CarriesMessage content choice.parts

def headersChanges : Changes FrameHeaders
  | "requestId", t => (nullableText t).map fun v _ => some v
  | _, _ => none

theorem slot?_headersRecord : headersRecord.slot? = among ["requestId"] := by
  funext name
  simp [Record.slot?, headersRecord, Member.ofField, Member.answersTo, among]

theorem single_requestId : headersRecord.Single "requestId" headersChanges nullableText where
  member := ⟨_, rfl, rfl, fun _ => rfl⟩
  own _ := rfl
  other o t different := by
    unfold headersChanges
    split
    · contradiction
    · rfl

theorem understands_headers (depth : Nat) :
    headersRecord.Understands depth headersChanges fun _ _ => True := by
  refine single_requestId.understands fun m member => ?_
  obtain rfl := List.mem_singleton.mp member
  exact reads_nullableText (fun (_ : FrameHeaders) v => some v) rfl depth _

theorem headers_read (inner : Blanks) {headers : List (Label × Tree)}
    {choice : Option (Option String)} (carries : CarriesId headers choice) :
    headersRecord.ofTree? headersChanges none (.object inner headers) = some choice := by
  rw [CarriesId, ← slot?_headersRecord] at carries
  have each := carries.once
  obtain ⟨es, names, once, tells⟩ := carries
  obtain ⟨legible, same⟩ := single_requestId.told once tells
  exact (Record.ofTree?_eq_some (understands_headers 0) inner each single_requestId.vacant).mpr
    ⟨es, names, legible, same, rfl⟩

theorem slot?_messageRecord : messageRecord.slot? = Parts.field? := by
  funext name
  unfold Parts.field?
  split
  all_goals try rfl
  rename_i method path uri headers body
  simp [Record.slot?, messageRecord, Parts.members, Member.ofField, Member.answersTo,
    Ne.symm method, Ne.symm path, Ne.symm uri, Ne.symm headers, Ne.symm body]

theorem understands_message {depth : Nat} (deep : deepest < depth) :
    messageRecord.Understands depth Parts.changes Shallow :=
  ⟨Parts.reads deep, Parts.fills⟩

theorem message_read (inner : Blanks) {message : List (Label × Tree)} {parts : Parts}
    (carries : CarriesParts message parts) :
    messageRecord.ofTree? Parts.changes {} (.object inner message) = some parts := by
  rw [CarriesParts, ← slot?_messageRecord] at carries
  have each := carries.1.once
  obtain ⟨⟨es, names, once, told⟩, _⟩ := carries
  have legible := (Record.legible_iff once).mpr told.isSome
  have vacant : ∀ m ∈ messageRecord.members, m.filled {} = false := by decide
  have same := told.unique (Parts.stored.told once legible rfl)
  exact (Record.ofTree?_eq_some (understands_message (Nat.lt_succ_self _)) inner each vacant).mpr
    ⟨es, names, legible, same, rfl⟩

def contentChanges : Changes (Option Parts)
  | "message", t => (messageRecord.ofTree? Parts.changes {} t).map fun v _ => some v
  | _, _ => none

theorem slot?_contentRecord : contentRecord.slot? = among ["message"] := by
  funext name
  simp [Record.slot?, contentRecord, Member.ofField, Member.answersTo, among]

def ShallowMessage (t : Tree) : Prop :=
  ∃ inner message, t = .object inner message ∧ ShallowHeaders message

theorem single_message : contentRecord.Single "message" contentChanges
    (messageRecord.ofTree? Parts.changes {}) where
  member := ⟨_, rfl, rfl, fun _ => rfl⟩
  own _ := rfl
  other o t different := by
    unfold contentChanges
    split
    · contradiction
    · rfl

theorem understands_content {depth : Nat} (deep : deepest < depth) :
    contentRecord.Understands (depth + 1) contentChanges fun _ => ShallowMessage := by
  refine single_message.understands fun m member => ?_
  obtain rfl := List.mem_singleton.mp member
  refine Member.reads_field (fun (_ : Option Parts) v => some v)
    (messageRecord.ofTree? Parts.changes {}) rfl ?_
  rintro t blanks rest ⟨inner, message, rfl, shallow⟩ _
  refine Record.read_tree (understands_message deep) inner ?_ {} blanks rest
  rw [slot?_messageRecord]
  exact shallow_of_headers shallow fun _ => Parts.eq_headers

theorem content_read {content : ObjectText} {parts : Parts}
    (carries : CarriesMessage content parts) :
    readWhole (contentRecord.read none nesting) content.bytes = .ok (some parts) := by
  rw [CarriesMessage, ← slot?_contentRecord] at carries
  have each := carries.once
  obtain ⟨es, names, once, inner, message, entry, carries⟩ := carries
  have tells : Tells contentRecord.slot? es "message" (messageRecord.ofTree? Parts.changes {})
      (some parts) := by
    rw [Tells, entry, Option.map_some, message_read inner carries]
    rfl
  obtain ⟨legible, same⟩ := single_message.told once tells
  have understands := understands_content (show deepest < 125 by decide)
  refine (ObjectText.readWhole_record_iff understands each ?_ single_message.vacant).mpr
    ⟨es, names, legible, same, rfl⟩
  intro e member name slot named into
  obtain ⟨m, found, rfl⟩ := Record.slot?_eq_some into
  obtain rfl := List.mem_singleton.mp (List.mem_of_find?_eq_some found)
  have alone := entryFor?_of_mem once (mem_of_named? names member named) into
  exact ⟨inner, message, Option.some.inj (alone.symm.trans entry), carries.2⟩

def frameChanges : Changes Draft
  | "headers", t => (headersRecord.ofTree? headersChanges none t).map fun v d =>
      { d with headers := some v }
  | "httpRequest", t => (nullableText t).map fun v d => { d with content := some v }
  | _, _ => none

theorem slot?_frameRecord : frameRecord.slot? = among ["headers", "httpRequest"] := by
  funext name
  by_cases headers : name = "headers"
  · subst headers
    rfl
  · by_cases content : name = "httpRequest"
    · subst content
      rfl
    · simp [Record.slot?, frameRecord, Member.ofField, Member.answersTo, among, Ne.symm headers,
        Ne.symm content]

def ObjectHeaders (slot : String) (t : Tree) : Prop :=
  slot = "headers" → ∃ inner headers, t = .object inner headers

theorem understands_frame (depth : Nat) :
    frameRecord.Understands (depth + 1) frameChanges ObjectHeaders where
  reads m member := by
    simp only [frameRecord, List.mem_cons, List.not_mem_nil, or_false] at member
    rcases member with rfl | rfl
    · refine Member.reads_field (fun (d : Draft) v => { d with headers := some v })
        (headersRecord.ofTree? headersChanges none) rfl ?_
      intro t blanks rest object _
      obtain ⟨inner, headers, rfl⟩ := object rfl
      exact Record.read_tree (understands_headers depth) inner (fun _ _ _ _ _ _ => trivial) none
        blanks rest
    · exact reads_nullableText (fun (d : Draft) v => { d with content := some v }) rfl
        (depth + 1) _
  fills m hm o ho t change draft made := by
    simp only [frameRecord, List.mem_cons, List.not_mem_nil, or_false] at hm ho
    rcases hm with rfl | rfl <;>
      obtain ⟨v, _, rfl⟩ := Option.map_eq_some_iff.mp made <;>
      rcases ho with rfl | rfl <;>
      simp [Member.ofField]

theorem frameChanges_cases {slot : String} {t : Tree} {change : Draft → Draft}
    (made : frameChanges slot t = some change) :
    (slot = "headers" ∧ ∃ v, change = fun d => { d with headers := some v }) ∨
    (slot = "httpRequest" ∧ ∃ v, change = fun d => { d with content := some v }) := by
  unfold frameChanges at made
  split at made
  · obtain ⟨v, _, rfl⟩ := Option.map_eq_some_iff.mp made
    exact .inl ⟨rfl, v, rfl⟩
  · obtain ⟨v, _, rfl⟩ := Option.map_eq_some_iff.mp made
    exact .inr ⟨rfl, v, rfl⟩
  · contradiction

theorem stores_headers : frameChanges.Stores "headers" Draft.headers
    (headersRecord.ofTree? headersChanges none) where
  own t change d made := by
    obtain ⟨v, value, rfl⟩ := Option.map_eq_some_iff.mp made
    simp [value]
  other o t change d different made := by
    rcases frameChanges_cases made with ⟨rfl, _⟩ | ⟨_, v, rfl⟩
    · contradiction
    · rfl

theorem stores_content : frameChanges.Stores "httpRequest" Draft.content nullableText where
  own t change d made := by
    obtain ⟨v, value, rfl⟩ := Option.map_eq_some_iff.mp made
    simp [value]
  other o t change d different made := by
    rcases frameChanges_cases made with ⟨_, v, rfl⟩ | ⟨rfl, _⟩
    · rfl
    · contradiction

theorem frame_read {t : ObjectText} {choice : Flat.Draft} (carries : Carries t choice) :
    ∃ content : ObjectText, CarriesMessage content choice.parts ∧
      readWhole (frameRecord.read {} nesting) t.bytes =
        .ok ⟨some choice.id, some (some (Base64.encode content.bytes))⟩ := by
  rw [Carries, ← slot?_frameRecord] at carries
  have each := carries.once
  obtain ⟨es, names, once, ⟨inner, headers, headersEntry, carriesId⟩, pieces, content,
    contentEntry, text, message⟩ := carries
  have tellsHeaders : Tells frameRecord.slot? es "headers"
      (headersRecord.ofTree? headersChanges none) (some choice.id) := by
    rw [Tells, headersEntry, Option.map_some, headers_read inner carriesId]
    rfl
  have tellsContent : Tells frameRecord.slot? es "httpRequest" nullableText
      (some (some (Base64.encode content.bytes))) := by
    rw [Tells, contentEntry, Option.map_some, Option.map_some, nullableText, Tree.orNull,
      Tree.text?, text]
    · rfl
    · rintro ⟨⟩
  have legible : frameRecord.Legible frameChanges es := by
    refine (Record.legible_iff once).mpr fun m member t entry => ?_
    simp only [frameRecord, List.mem_cons, List.not_mem_nil, or_false] at member
    rcases member with rfl | rfl
    · exact Option.isSome_map.trans (tellsHeaders.isSome entry)
    · exact Option.isSome_map.trans (tellsContent.isSome entry)
  have vacant : ∀ m ∈ frameRecord.members, m.filled {} = false := by decide
  have sameHeaders : _ = (frameRecord.gather frameChanges {} es).headers :=
    tellsHeaders.unique (Record.tells_gather stores_headers once legible rfl)
  have sameContent : _ = (frameRecord.gather frameChanges {} es).content :=
    tellsContent.unique (Record.tells_gather stores_content once legible rfl)
  refine ⟨content, message, (ObjectText.readWhole_record_iff (understands_frame 125) each ?_
    vacant).mpr ⟨es, names, legible, ?_, rfl⟩⟩
  · rintro e member name slot named into rfl
    have alone := entryFor?_of_mem once (mem_of_named? names member named) into
    exact ⟨inner, headers, Option.some.inj (alone.symm.trans headersEntry)⟩
  · rw [sameHeaders, sameContent]

/-- The reason for which a frame is refused in place of an object: the field is another one. -/
def refusal : Malformed → Malformed
  | .json error => .json error
  | .base64 field error => .base64 ("message." ++ field) error
  | .missing field => .missing (if field = "id" then "headers.requestId" else "message." ++ field)

theorem require_refusal {field field' : String} (value : Option String)
    (same : refusal (.missing field) = .missing field') :
    require field' value = (require field value).mapError refusal := by
  unfold require
  split
  · rfl
  · exact congrArg Except.error same.symm

theorem mapError_bind (x : Except ε α) (f : α → Except ε β) (g : ε → ε') :
    (x >>= f).mapError g = x.mapError g >>= fun a => (f a).mapError g := by
  cases x <;> rfl

theorem readBody_refusal (value : Option String) :
    readBody ("message." ++ "body") value = (readBody ("" ++ "body") value).mapError refusal := by
  cases value with
  | none => rfl
  | some text =>
    simp only [readBody]
    split
    · rfl
    · rw [readBase64, readBase64]
      cases Base64.decode (Text.trim text) <;> rfl

theorem toRequest_refusal (parts : Parts) (id : String) : parts.toRequest "message." id =
    (parts.toRequest "" id).mapError refusal := by
  have method := require_refusal parts.method.join
    (show refusal (.missing ("" ++ "method")) = .missing ("message." ++ "method") from rfl)
  have path := require_refusal parts.path.join
    (show refusal (.missing ("" ++ "path")) = .missing ("message." ++ "path") from rfl)
  simp only [Parts.toRequest, method, path, readBody_refusal, mapError_bind]
  rfl

theorem bytes_ne_nil (t : ObjectText) : t.bytes ≠ [] := by
  intro empty
  rw [ObjectText.bytes, ObjectText.tree, Tree.bytes] at empty
  simp at empty

theorem readRequest_carried {t : ObjectText} {choice : Flat.Draft} (carries : Carries t choice) :
    readRequest t.bytes = (require "headers.requestId" choice.id.join).bind fun id =>
      choice.parts.toRequest "message." id := by
  obtain ⟨content, message, frame⟩ := frame_read carries
  have solid : Text.allBlank (Base64.encode content.bytes) = false := by
    rw [← Bool.not_eq_true]
    exact fun blank => bytes_ne_nil content (eq_nil_of_allBlank_encode blank)
  simp only [readRequest, frame, mapError_ok, bind, Except.bind, requireId, Option.join_some,
    require_eq, solid, Bool.false_eq_true, if_false, readBase64_encode, content_read message,
    Option.getD_some]

end Framed

theorem Flat.readRequest_carried {t : ObjectText} {choice : Draft} (carries : Carries t choice) :
    readRequest t.bytes = (require "id" choice.id.join).bind fun id =>
      choice.parts.toRequest "" id := by
  obtain ⟨lists, shallow⟩ := carries
  have each := lists.once
  obtain ⟨es, names, _, told⟩ := lists
  have whole := (draft_iff each shallow).mpr ⟨es, names, told⟩
  simp only [readRequest, whole, mapError_ok, bind, Except.bind]

/-- An object and a frame that carry the same choice of fields are read as the same request or
refused for the same reason in the same field. -/
theorem formats_agree {choice : Flat.Draft} {object frame : ObjectText}
    (flat : Flat.Carries object choice) (framed : Framed.Carries frame choice) :
    Framed.readRequest frame.bytes =
      (Flat.readRequest object.bytes).mapError Framed.refusal := by
  have id := Framed.require_refusal choice.id.join
    (show Framed.refusal (.missing "id") = .missing "headers.requestId" from rfl)
  rw [Framed.readRequest_carried framed, Flat.readRequest_carried flat, id]
  cases require "id" choice.id.join with
  | error e => rfl
  | ok id => exact Framed.toRequest_refusal choice.parts id

/-- Parts of which two are wrong: a blank path, and a body that is no base64. -/
def twiceWrong : List (Label × Tree) :=
  [ (.tight (plainly (Utf8.encode "body")), .text (plainly (Utf8.encode "?"))),
    (⟨[.space], plainly (Utf8.encode "requestUri"), [], [.space], []⟩, .null),
    (.tight (plainly (Utf8.encode "headers")),
      .object [] [(.tight (plainly (Utf8.encode "A")),
        .text [.short 0x6E 0x0A rfl, .plain 0x62 (by decide)])]),
    (.tight (plainly (Utf8.encode "method")), .text (plainly (Utf8.encode "get"))) ]

def twiceWrongObject : ObjectText where
  before := []
  inner := []
  entries := (.tight (plainly (Utf8.encode "id")), .text (plainly (Utf8.encode "r"))) :: twiceWrong
  after := [.newline]

def twiceWrongContent : ObjectText where
  before := [.space]
  inner := []
  entries := [(.tight (plainly (Utf8.encode "message")), .object [] twiceWrong)]
  after := []

def twiceWrongFrame : ObjectText where
  before := []
  inner := []
  entries :=
    [ (.tight (plainly (Utf8.encode "httpRequest")),
        .text (plainly (Utf8.encode (Base64.encode twiceWrongContent.bytes)))),
      (.tight (plainly (Utf8.encode "headers")),
        .object [] [(.tight (plainly (Utf8.encode "requestId")),
          .text (plainly (Utf8.encode "r")))]) ]
  after := []

def twiceWrongChoice : Flat.Draft where
  id := some (some "r")
  parts :=
    { method := some (some "get")
      path := some none
      headers := some (some (Dictionary.ofList [("A", .text "\nb")]))
      body := some (some "?") }

theorem shallow_twiceWrong : ShallowHeaders twiceWrong := by
  intro e member named _ inner es same h inside
  simp only [twiceWrong, List.mem_cons, List.not_mem_nil, or_false] at member
  rcases member with rfl | rfl | rfl | rfl <;> cases same
  rw [List.mem_singleton.mp inside]
  decide

theorem twiceWrongObject_carries : Flat.Carries twiceWrongObject twiceWrongChoice := by
  refine ⟨⟨_, rfl, by unfold Once; decide, rfl, rfl, rfl, rfl, rfl⟩, ?_⟩
  intro e member named
  rcases List.mem_cons.mp member with rfl | member
  · exact nomatch named
  · exact shallow_twiceWrong e member named

theorem twiceWrongFrame_carries : Framed.Carries twiceWrongFrame twiceWrongChoice := by
  refine ⟨_, rfl, by unfold Once; decide, ⟨_, _, rfl, _, rfl, by unfold Once; decide, rfl⟩,
    _, twiceWrongContent, rfl, by decide +kernel, _, rfl, by unfold Once; decide, _, _, rfl,
    ⟨_, rfl, by unfold Once; decide, rfl, rfl, rfl, rfl⟩, shallow_twiceWrong⟩

theorem formats_agree_twiceWrong :
    Flat.Carries twiceWrongObject twiceWrongChoice ∧
    Framed.Carries twiceWrongFrame twiceWrongChoice ∧
    Framed.readRequest twiceWrongFrame.bytes = .error (.missing "message.path") := by
  refine ⟨twiceWrongObject_carries, twiceWrongFrame_carries, ?_⟩
  have object : Flat.readRequest twiceWrongObject.bytes = .error (.missing "path") := by
    rw [Flat.readRequest_carried twiceWrongObject_carries]
    rfl
  rw [formats_agree twiceWrongObject_carries twiceWrongFrame_carries, object]
  rfl

end RequestBus.Wire
