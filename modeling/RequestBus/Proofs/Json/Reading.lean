import RequestBus.Proofs.Json.Spelling
import RequestBus.Proofs.Json.Values

namespace RequestBus.Json

theorem foldlM_bind {f : α → Option β} {g : σ → β → Option σ} (l : List α) (start : σ) :
    l.foldlM (fun state a => (f a).bind (g state)) start =
      (l.mapM f).bind fun bs => bs.foldlM g start := by
  induction l generalizing start with
  | nil => rfl
  | cons a l ih =>
    rw [List.foldlM_cons, List.mapM_cons]
    cases f a with
    | none => rfl
    | some b =>
      cases next : g start b with
      | none => cases l.mapM f <;> simp [next]
      | some state =>
        have later := ih state
        cases found : l.mapM f with
        | none => simpa [found, next] using later
        | some bs => simpa [found, next] using later

theorem foldlM_map {f : α → Option β} {g : σ → β → σ} (l : List α) (start : σ) :
    l.foldlM (fun state a => (f a).map (g state)) start =
      (l.mapM f).map fun bs => bs.foldl g start := by
  have pure : (fun bs : List β => bs.foldlM (fun state b => some (g state b)) start) =
      some ∘ fun bs => bs.foldl g start := funext fun bs => List.foldlM_pure
  simp only [Option.map_eq_bind, Function.comp_def]
  rw [foldlM_bind, pure]
  rfl

theorem mapM_isSome {f : α → Option β} {l : List α} :
    (l.mapM f).isSome ↔ ∀ a ∈ l, (f a).isSome := by
  induction l with
  | nil => simp
  | cons a l ih =>
    rw [List.mapM_cons, List.forall_mem_cons, ← ih]
    cases f a with
    | none => simp
    | some b => cases l.mapM f <;> simp

theorem mapM_eq_some {f : α → Option β} {l : List α} {bs : List β} :
    l.mapM f = some bs ↔ l.map f = bs.map some := by
  induction l generalizing bs with
  | nil => cases bs <;> simp
  | cons a l ih =>
    cases bs with
    | nil =>
      rw [List.mapM_cons]
      cases f a <;> cases l.mapM f <;> simp
    | cons b bs =>
      rw [List.mapM_cons, List.map_cons, List.map_cons, List.cons.injEq, ← ih]
      cases f a <;> cases l.mapM f <;> simp

namespace Tree

theorem itemValues_eq (items : List (Padding × Tree)) :
    itemValues items = items.mapM fun i => i.2.value? := by
  induction items with
  | nil => rfl
  | cons i items ih =>
    rw [itemValues, ih, List.mapM_cons]
    cases i.2.value? with
    | none => rfl
    | some v => cases items.mapM fun i => i.2.value? <;> rfl

def member? (e : Label × Tree) : Option (String × Value) :=
  (text? e.1.name).bind fun name => e.2.value?.map (name, ·)

theorem entryValues_eq (entries : List (Label × Tree)) :
    entryValues entries = entries.mapM member? := by
  induction entries with
  | nil => rfl
  | cons e entries ih =>
    rw [entryValues, ih, List.mapM_cons, member?]
    cases text? e.1.name with
    | none => rfl
    | some name =>
      cases e.2.value? with
      | none => rfl
      | some v => cases entries.mapM member? <;> rfl

theorem opens (t : Tree) : ∃ b tail, t.bytes = b :: tail ∧ isBlank b = false ∧
    b ≠ Frame.close .list := by
  cases t with
  | flag b => cases b <;> exact ⟨_, _, rfl, rfl, by decide⟩
  | number l =>
    obtain ⟨b, tail, form, opens⟩ := opens_literal l
    refine ⟨b, tail, form, (opens_number opens).1, ?_⟩
    rintro rfl
    exact absurd opens (by decide)
  | _ => exact ⟨_, _, rfl, rfl, by decide⟩

theorem skipBlanks_bytes (t : Tree) (blanks : Blanks) (rest : Bytes) :
    skipBlanks (blanks.bytes ++ (t.bytes ++ rest)) = t.bytes ++ rest := by
  obtain ⟨b, tail, form, solid, _⟩ := t.opens
  rw [skipBlanks_blanks, form, List.cons_append, skipBlanks_cons solid]

end Tree

theorem Padding.around_append (pad : Padding) (value rest : Bytes) :
    pad.around value ++ rest = pad.before.bytes ++ (value ++ (pad.after.bytes ++ rest)) := by
  simp [Padding.around]

theorem Label.around_append (label : Label) (value rest : Bytes) : label.around value ++ rest =
    label.before.bytes ++ (quoteByte :: (pieceBytes label.name ++
      quoteByte :: label.colon (value ++ (label.after.bytes ++ rest)))) := by
  simp [Label.around, Label.colon, quotedBytes]

theorem readColon_label (label : Label) (value : Bytes) :
    readColon (label.colon value) = .ok (label.ahead.bytes ++ value) := by
  rw [readColon, Label.colon, skipBlanks_blanks,
    skipBlanks_cons (show isBlank colonByte = false by decide)]
  rfl

theorem endsNumber_separated (texts : List Bytes) (frame : Frame) (rest : Bytes) :
    EndsNumber (separated false texts ++ frame.close :: rest) := by
  cases texts with
  | nil => cases frame <;> exact ⟨rfl, by decide, by decide, by decide⟩
  | cons one texts => exact ⟨rfl, by decide, by decide, by decide⟩

theorem length_le_separated (texts : List Bytes) (first : Bool) :
    texts.length ≤ (separated first texts).length + 1 := by
  have later : ∀ texts : List Bytes, texts.length ≤ (separated false texts).length := by
    intro texts
    induction texts with
    | nil => exact Nat.zero_le _
    | cons one texts ih =>
      simp only [separated, List.length_append, List.length_cons]
      omega
  cases texts with
  | nil => simp
  | cons one texts =>
    have behind := later texts
    cases first <;> simp only [separated, List.length_append, List.length_cons] <;> omega

theorem nextItem_end (first : Bool) (blanks : Blanks) (rest : Bytes) :
    nextItem first (blanks.bytes ++ Frame.close .list :: rest) = .ok (false, rest) := by
  rw [nextItem, skipBlanks_blanks]
  rfl

theorem nextItem_tree (first : Bool) (blanks : Blanks) (pad : Padding) (t : Tree)
    (more : List Bytes) (rest : Bytes) :
    nextItem first (blanks.bytes ++ (separated first (pad.around t.bytes :: more) ++ rest)) =
      .ok (true, t.bytes ++ (pad.after.bytes ++ (separated false more ++ rest))) := by
  obtain ⟨b, tail, form, _, notClose⟩ := t.opens
  cases first with
  | true =>
    rw [nextItem, skipBlanks_blanks, separated, List.append_assoc, Padding.around_append,
      t.skipBlanks_bytes, form]
    simp only [List.cons_append, notClose, if_false, if_true]
  | false =>
    rw [nextItem, skipBlanks_blanks, separated, List.cons_append, List.append_assoc,
      Padding.around_append, skipBlanks_cons (show isBlank commaByte = false by decide)]
    simp only [show commaByte ≠ Frame.close .list by decide, if_false, Bool.false_eq_true, if_true,
      t.skipBlanks_bytes]
    simp only [form, List.cons_append, notClose, if_false]

theorem nextName_closed (first : Bool) (blanks : Blanks) (rest : Bytes) :
    nextName first (blanks.bytes ++ Frame.close .object :: rest) = .ok (none, rest) := by
  rw [nextName, skipBlanks_blanks]
  rfl

theorem nextName_label (first : Bool) (blanks : Blanks) (label : Label) (value : Bytes)
    (more : List Bytes) (rest : Bytes) :
    (nextName first (blanks.bytes ++
      (separated first (label.around value :: more) ++ rest))).toOption =
      (text? label.name).map fun name => (some name,
        label.colon (value ++ (label.after.bytes ++ (separated false more ++ rest)))) := by
  have read := readText_pieces label.name
    (label.colon (value ++ (label.after.bytes ++ (separated false more ++ rest))))
  have solid : isBlank quoteByte = false := by decide
  cases first with
  | true =>
    rw [nextName, skipBlanks_blanks, separated, List.append_assoc, Label.around_append,
      skipBlanks_blanks, skipBlanks_cons solid]
    simp only [show quoteByte ≠ Frame.close .object by decide, if_false, if_true, toOption_map, read,
      Option.map_map, Function.comp_def]
  | false =>
    rw [nextName, skipBlanks_blanks, separated, List.cons_append, List.append_assoc,
      Label.around_append, skipBlanks_cons (show isBlank commaByte = false by decide)]
    simp only [show commaByte ≠ Frame.close .object by decide, if_false, Bool.false_eq_true,
      if_true, skipBlanks_blanks, skipBlanks_cons solid, toOption_map, read, Option.map_map,
      Function.comp_def]

theorem foldItems_trees {onItem : σ → Bytes → Except Fault (Front σ)}
    {act : σ → Padding × Tree → Option σ} {items : List (Padding × Tree)}
    (each : ∀ i ∈ items, ∀ state rest, EndsNumber rest →
      (onItem state (i.2.bytes ++ rest)).toOption = (act state i).map (·, rest))
    {fuel : Nat} (enough : items.length < fuel) (first : Bool) (blanks : Blanks) (state : σ)
    (rest : Bytes) :
    (foldItems onItem fuel first state (blanks.bytes ++
      (separated first (Tree.itemBytes items) ++ Frame.close .list :: rest))).toOption =
        (items.foldlM act state).map (·, rest) := by
  induction items generalizing fuel first blanks state with
  | nil =>
    cases fuel with
    | zero => contradiction
    | succ fuel =>
      simp only [Tree.itemBytes, separated, List.nil_append, foldItems, nextItem_end, bind,
        Except.bind]
      rfl
  | cons i items ih =>
    cases fuel with
    | zero => contradiction
    | succ fuel =>
      have ends := endsNumber_blanks i.1.after
        (endsNumber_separated (Tree.itemBytes items) .list rest)
      rw [Tree.itemBytes, foldItems, nextItem_tree, toOption_bind, toOption_ok, Option.bind_some,
        toOption_bind, each i List.mem_cons_self _ _ ends, List.foldlM_cons]
      cases act state i with
      | none => rfl
      | some next =>
        exact ih (fun j hj => each j (List.mem_cons_of_mem _ hj)) (by simpa using enough) false
          i.1.after next

theorem foldMembers_trees {onMember : σ → String → Bytes → Except Fault (Front σ)}
    {act : σ → String → Label × Tree → Option σ} {entries : List (Label × Tree)}
    (each : ∀ e ∈ entries, ∀ state name rest, text? e.1.name = some name → EndsNumber rest →
      (onMember state name (e.1.colon (e.2.bytes ++ rest))).toOption =
        (act state name e).map (·, rest))
    {fuel : Nat} (enough : entries.length < fuel) (first : Bool) (blanks : Blanks) (state : σ)
    (rest : Bytes) :
    (foldMembers onMember fuel first state (blanks.bytes ++
      (separated first (Tree.entryBytes entries) ++ Frame.close .object :: rest))).toOption =
        (entries.foldlM (fun state e => (text? e.1.name).bind fun name => act state name e)
          state).map (·, rest) := by
  induction entries generalizing fuel first blanks state with
  | nil =>
    cases fuel with
    | zero => contradiction
    | succ fuel =>
      simp only [Tree.entryBytes, separated, List.nil_append, foldMembers, nextName_closed, bind,
        Except.bind]
      rfl
  | cons e entries ih =>
    cases fuel with
    | zero => contradiction
    | succ fuel =>
      have ends := endsNumber_blanks e.1.after
        (endsNumber_separated (Tree.entryBytes entries) .object rest)
      rw [Tree.entryBytes, foldMembers, toOption_bind, nextName_label, List.foldlM_cons]
      cases named : text? e.1.name with
      | none => rfl
      | some name =>
        rw [Option.map_some, Option.bind_some, toOption_bind,
          each e List.mem_cons_self state name _ named ends]
        cases taken : act state name e with
        | none => simp [taken]
        | some next =>
          have later := ih (fun f hf => each f (List.mem_cons_of_mem _ hf)) (by simpa using enough)
            false e.1.after next
          simpa [taken] using later

theorem items_lt_length (items : List (Padding × Tree)) (inner : Blanks) (rest : Bytes) :
    items.length < (inner.bytes ++ (separated true (Tree.itemBytes items) ++
      Frame.close .list :: rest)).length + 1 := by
  have length := length_le_separated (Tree.itemBytes items) true
  rw [Tree.itemBytes_eq, List.length_map, ← Tree.itemBytes_eq] at length
  simp only [List.length_append, List.length_cons]
  omega

theorem entries_lt_length (entries : List (Label × Tree)) (inner : Blanks) (rest : Bytes) :
    entries.length < (inner.bytes ++ (separated true (Tree.entryBytes entries) ++
      Frame.close .object :: rest)).length + 1 := by
  have length := length_le_separated (Tree.entryBytes entries) true
  rw [Tree.entryBytes_eq, List.length_map, ← Tree.entryBytes_eq] at length
  simp only [List.length_append, List.length_cons]
  omega

theorem readItems_trees {item : Bytes → Except Fault (Front Value)} {items : List (Padding × Tree)}
    (each : ∀ i ∈ items, ∀ rest, EndsNumber rest →
      (item (i.2.bytes ++ rest)).toOption = i.2.value?.map (·, rest)) (inner : Blanks)
    (rest : Bytes) :
    (readItems item (inner.bytes ++ (separated true (Tree.itemBytes items) ++
      Frame.close .list :: rest))).toOption = (Tree.itemValues items).map (·, rest) := by
  have reversed : ∀ (vs start : List Value),
      vs.foldl (fun state v => v :: state) start = vs.reverse ++ start := by
    intro vs
    induction vs with
    | nil => exact fun _ => rfl
    | cons v vs ih =>
      intro start
      rw [List.foldl_cons, ih]
      simp
  rw [readItems, toOption_bind,
    @foldItems_trees _ _ (fun vs i => i.2.value?.map (· :: vs)) items ?_ _
      (items_lt_length items inner rest),
    Tree.itemValues_eq, foldlM_map]
  · cases items.mapM fun i => i.2.value? with
    | none => rfl
    | some vs => simp [reversed, pure, Except.pure]
  · intro i member state rest ends
    rw [toOption_bind, each i member rest ends]
    cases i.2.value? <;> rfl

theorem readDictionary_trees {item : Bytes → Except Fault (Front Value)}
    {entries : List (Label × Tree)}
    (each : ∀ e ∈ entries, ∀ blanks rest, EndsNumber rest →
      (item (Blanks.bytes blanks ++ (e.2.bytes ++ rest))).toOption = e.2.value?.map (·, rest))
    (inner : Blanks) (rest : Bytes) :
    (readDictionary item (inner.bytes ++ (separated true (Tree.entryBytes entries) ++
      Frame.close .object :: rest))).toOption =
        (Tree.entryValues entries).map fun members => (Dictionary.ofList members, rest) := by
  have step : (fun (d : Dictionary Value) e => (text? e.1.name).bind fun name =>
      e.2.value?.map (d.insert name)) =
        fun d e => (Tree.member? e).map fun m => d.insert m.1 m.2 := by
    funext d e
    rw [Tree.member?]
    cases text? e.1.name with
    | none => rfl
    | some name => cases e.2.value? <;> rfl
  rw [readDictionary,
    @foldMembers_trees _ _ (fun d name e => e.2.value?.map (d.insert name)) entries ?_ _
      (entries_lt_length entries inner rest),
    Tree.entryValues_eq, step, foldlM_map, Option.map_map]
  · rfl
  · intro e member d name rest named ends
    rw [readColon_label, toOption_bind, toOption_ok, Option.bind_some, toOption_bind,
      each e member e.1.ahead rest ends]
    cases e.2.value? <;> rfl

theorem readValueWith_blanks (inside : Except Cause (Bytes → Except Fault (Front Value)))
    (blanks : Blanks) (s : Bytes) :
    readValueWith inside (blanks.bytes ++ s) = readValueWith inside s := by
  simp only [readValueWith, skipBlanks_blanks]

theorem readValue_blanks (depth : Nat) (blanks : Blanks) (s : Bytes) :
    readValue depth (blanks.bytes ++ s) = readValue depth s := by
  cases depth <;> exact readValueWith_blanks _ blanks s

theorem readValueWith_tree {inside : Except Cause (Bytes → Except Fault (Front Value))} (t : Tree)
    (items : ∀ inner is, t = .list inner is → ∃ item, inside = .ok item ∧
      ∀ i ∈ is, ∀ rest, EndsNumber rest →
        (item (i.2.bytes ++ rest)).toOption = i.2.value?.map (·, rest))
    (entries : ∀ inner es, t = .object inner es → ∃ item, inside = .ok item ∧
      ∀ e ∈ es, ∀ blanks rest, EndsNumber rest →
        (item (Blanks.bytes blanks ++ (e.2.bytes ++ rest))).toOption = e.2.value?.map (·, rest))
    {rest : Bytes} (ends : EndsNumber rest) :
    (readValueWith inside (t.bytes ++ rest)).toOption = t.value?.map (·, rest) := by
  cases t with
  | null => rfl
  | flag b => cases b <;> rfl
  | number l =>
    obtain ⟨b, tail, form, opens⟩ := opens_literal l
    have read := readNumber_literal l ends
    rw [Tree.bytes, Tree.value?]
    rw [form, List.cons_append] at read ⊢
    rw [readValueWith_number _ opens, toOption_map, read]
    cases l.value? <;> rfl
  | text pieces =>
    have read := readText_pieces pieces rest
    rw [Tree.bytes, Tree.value?, quotedBytes, List.cons_append, List.append_assoc,
      List.singleton_append, readValueWith_text, toOption_map, read]
    cases text? pieces <;> rfl
  | list inner is =>
    obtain ⟨item, rfl, each⟩ := items inner is rfl
    have read := readItems_trees each inner rest
    have form : (Tree.list inner is).bytes ++ rest = openList :: (inner.bytes ++
        (separated true (Tree.itemBytes is) ++ Frame.close .list :: rest)) := by
      simp [Tree.bytes]
    have list : ∀ s, readValueWith (.ok item) (openList :: s) =
        (readItems item s).map (Prod.map .list id) := fun s => rfl
    rw [form, list, toOption_map, read, Tree.value?]
    cases Tree.itemValues is <;> rfl
  | object inner es =>
    obtain ⟨item, rfl, each⟩ := entries inner es rfl
    have read := readDictionary_trees each inner rest
    have form : (Tree.object inner es).bytes ++ rest = openObject :: (inner.bytes ++
        (separated true (Tree.entryBytes es) ++ Frame.close .object :: rest)) := by
      simp [Tree.bytes]
    have object : ∀ s, readValueWith (.ok item) (openObject :: s) =
        (readDictionary item s).map (Prod.map (.object ·.entries) id) := fun s => rfl
    rw [form, object, toOption_map, read, Tree.value?]
    cases Tree.entryValues es <;> rfl

/-- What is read of the text of a tree is what the tree stands for. -/
theorem readValue_tree {t : Tree} {depth : Nat} (fits : t.depth ≤ depth) {rest : Bytes}
    (ends : EndsNumber rest) :
    (readValue depth (t.bytes ++ rest)).toOption = t.value?.map (·, rest) := by
  induction t using Tree.induction generalizing depth rest with
  | list inner is ih =>
    cases depth with
    | zero => contradiction
    | succ depth =>
      rw [Tree.depth] at fits
      have shallow := Tree.depth_le_of_item (Nat.le_of_succ_le_succ fits)
      refine readValueWith_tree _ (fun _ _ same => ?_) (fun _ _ same => by cases same) ends
      cases same
      exact ⟨readValue depth, rfl, fun i member rest => ih i member (shallow i member)⟩
  | object inner es ih =>
    cases depth with
    | zero => contradiction
    | succ depth =>
      rw [Tree.depth] at fits
      have shallow := Tree.depth_le_of_entry (Nat.le_of_succ_le_succ fits)
      refine readValueWith_tree _ (fun _ _ same => by cases same) (fun _ _ same => ?_) ends
      cases same
      refine ⟨readValue depth, rfl, fun e member blanks rest ends => ?_⟩
      rw [readValue_blanks]
      exact ih e member (shallow e member) ends
  | _ =>
    cases depth <;>
      exact readValueWith_tree _ (fun _ _ same => by cases same) (fun _ _ same => by cases same) ends

namespace Tree

def text? : Tree → Option String
  | .text pieces => Json.text? pieces
  | _ => none

def dictionary? : Tree → Option (Dictionary Value)
  | .object _ entries => (entryValues entries).map Dictionary.ofList
  | _ => none

def orNull (what? : Tree → Option α) : Tree → Option (Option α)
  | .null => some none
  | t => (what? t).map some

theorem orNull_of_ne {t : Tree} (h : t ≠ .null) (what? : Tree → Option α) :
    t.orNull what? = (what? t).map some := by
  cases t with
  | null => contradiction
  | _ => rfl

theorem kind_of_opening {t : Tree} {b : UInt8} {tail : Bytes} (form : t.bytes = b :: tail) :
    (b = 0x6E → t = .null) ∧ (b = quoteByte → ∃ pieces, t = .text pieces) ∧
    (b = openObject → ∃ inner entries, t = .object inner entries) := by
  cases t with
  | number l =>
    obtain ⟨c, tail', same, opens⟩ := opens_literal l
    obtain ⟨_, notNull, _, _, notText, _, notObject⟩ := opens_number opens
    rw [bytes, same] at form
    obtain rfl := (List.cons.inj form).1
    exact ⟨fun h => absurd h notNull, fun h => absurd h notText, fun h => absurd h notObject⟩
  | null =>
    obtain rfl := (List.cons.inj form).1
    exact ⟨fun _ => rfl, fun h => absurd h (by decide), fun h => absurd h (by decide)⟩
  | flag b =>
    cases b <;> obtain rfl := (List.cons.inj form).1 <;>
      exact ⟨fun h => absurd h (by decide), fun h => absurd h (by decide),
        fun h => absurd h (by decide)⟩
  | text pieces =>
    obtain rfl := (List.cons.inj form).1
    exact ⟨fun h => absurd h (by decide), fun _ => ⟨pieces, rfl⟩, fun h => absurd h (by decide)⟩
  | list inner items =>
    obtain rfl := (List.cons.inj form).1
    exact ⟨fun h => absurd h (by decide), fun h => absurd h (by decide),
      fun h => absurd h (by decide)⟩
  | object inner entries =>
    obtain rfl := (List.cons.inj form).1
    exact ⟨fun h => absurd h (by decide), fun h => absurd h (by decide),
      fun _ => ⟨inner, entries, rfl⟩⟩

end Tree

theorem readTextValue_tree (t : Tree) (rest : Bytes) :
    (readTextValue (t.bytes ++ rest)).toOption = t.text?.map (·, rest) := by
  obtain ⟨b, tail, form, solid, _⟩ := t.opens
  rw [readTextValue, form, List.cons_append, skipBlanks_cons solid]
  dsimp only
  split
  · rename_i quote
    obtain ⟨pieces, rfl⟩ := (Tree.kind_of_opening form).2.1 quote
    rw [Tree.bytes, quotedBytes] at form
    obtain ⟨_, rfl⟩ := List.cons.inj form
    rw [List.append_assoc, List.singleton_append, readText_pieces]
    rfl
  · rename_i notQuote
    cases t with
    | text pieces => exact absurd (List.cons.inj form).1.symm notQuote
    | _ => rfl

theorem readObjectValue_tree {t : Tree} {depth : Nat} (fits : ∀ inner entries,
    t = .object inner entries → ∀ e ∈ entries, e.2.depth ≤ depth) (rest : Bytes) :
    (readObjectValue (depth + 1) (t.bytes ++ rest)).toOption = t.dictionary?.map (·, rest) := by
  obtain ⟨b, tail, form, solid, _⟩ := t.opens
  rw [readObjectValue, form, List.cons_append, skipBlanks_cons solid]
  dsimp only
  split
  · rename_i opens
    obtain ⟨inner, entries, rfl⟩ := (Tree.kind_of_opening form).2.2 opens
    rw [Tree.bytes] at form
    obtain ⟨_, rfl⟩ := List.cons.inj form
    have each : ∀ e ∈ entries, ∀ blanks rest, EndsNumber rest →
        (readValue depth (Blanks.bytes blanks ++ (e.2.bytes ++ rest))).toOption =
          e.2.value?.map (·, rest) := by
      intro e member blanks rest ends
      rw [readValue_blanks]
      exact readValue_tree (fits inner entries rfl e member) ends
    rw [List.append_assoc, List.append_assoc, List.singleton_append,
      readDictionary_trees each, Tree.dictionary?, Option.map_map]
    rfl
  · rename_i notOpens
    cases t with
    | object inner entries => exact absurd (List.cons.inj form).1.symm notOpens
    | _ => rfl

theorem readNullable_tree {read : Bytes → Except Fault (Front α)} {what? : Tree → Option α}
    {t : Tree} {rest : Bytes} (reads : (read (t.bytes ++ rest)).toOption = (what? t).map (·, rest))
    (blanks : Blanks) :
    (readNullable read (blanks.bytes ++ (t.bytes ++ rest))).toOption =
      (t.orNull what?).map (·, rest) := by
  obtain ⟨b, tail, form, _, _⟩ := t.opens
  rw [readNullable, t.skipBlanks_bytes]
  split
  · rename_i same
    rw [form] at same
    obtain rfl := (Tree.kind_of_opening form).1 (List.cons.inj same).1
    obtain ⟨_, rfl⟩ := List.cons.inj form
    obtain ⟨_, rfl⟩ := List.cons.inj same
    rfl
  · rename_i notNull
    have other : t ≠ .null := by
      rintro rfl
      exact notNull _ rfl
    rw [toOption_map, reads, Tree.orNull_of_ne other]
    cases what? t <;> rfl

def Frame.opening : Frame → UInt8
  | .list => openList
  | .object => openObject

def enter : Frame → Bytes → Except Fault Bytes
  | .list, s => .ok s
  | .object, s => skipName s

structure Fills (frame : Frame) (one : Bytes) : Prop where
  opens : ∀ rest, ∃ b tail, skipBlanks (one ++ rest) = b :: tail ∧ b ≠ frame.close
  goes : ∀ frames rest, EndsNumber rest →
    enter frame (one ++ rest) >>= skipFrom (frame :: frames) = skipOnward (frame :: frames) rest

theorem enter_skipBlanks (frame : Frame) (frames : List Frame) (s : Bytes) :
    enter frame (skipBlanks s) >>= skipFrom frames = enter frame s >>= skipFrom frames := by
  cases frame with
  | list => exact skipFrom_skipBlanks frames s
  | object => rw [enter, enter, skipName, skipName, skipBlanks_skipBlanks]

theorem skipOnward_blanks (frame : Frame) (frames : List Frame) (blanks : Blanks) (s : Bytes) :
    skipOnward (frame :: frames) (blanks.bytes ++ s) = skipOnward (frame :: frames) s := by
  simp only [skipOnward, skipAfter, skipBlanks_blanks]

theorem skipOnward_close (frame : Frame) (frames : List Frame) (rest : Bytes) :
    skipOnward (frame :: frames) (frame.close :: rest) = skipOnward frames rest := by
  have solid : isBlank frame.close = false := by cases frame <;> rfl
  have notComma : frame.close ≠ commaByte := by cases frame <;> decide
  simp only [skipOnward, skipAfter, skipBlanks_cons solid, notComma, if_false, if_true]

theorem skipOnward_comma (frame : Frame) (frames : List Frame) (s : Bytes) :
    skipOnward (frame :: frames) (commaByte :: s) =
      enter frame s >>= skipFrom (frame :: frames) := by
  simp only [skipOnward, skipAfter, skipBlanks_cons (show isBlank commaByte = false by decide),
    if_true]
  cases frame with
  | list => rfl
  | object =>
    rw [enter]
    cases skipName s <;> rfl

theorem skipOnward_separated {frame : Frame} {texts : List Bytes}
    (fills : ∀ one ∈ texts, Fills frame one) (frames : List Frame) (rest : Bytes) :
    skipOnward (frame :: frames) (separated false texts ++ frame.close :: rest) =
      skipOnward frames rest := by
  induction texts with
  | nil => exact skipOnward_close frame frames rest
  | cons one texts ih =>
    rw [separated, List.cons_append, List.append_assoc, skipOnward_comma,
      (fills one List.mem_cons_self).goes _ _ (endsNumber_separated texts frame rest)]
    exact ih fun other member => fills other (List.mem_cons_of_mem _ member)

theorem passes_separated {frame : Frame} {texts : List Bytes}
    (fills : ∀ one ∈ texts, Fills frame one) (inner : Blanks) (rest : Bytes) :
    Passes (frame.opening :: (inner.bytes ++ (separated true texts ++ frame.close :: rest)))
      rest := by
  intro frames
  have front : ∀ s, skipBlanks (frame.opening :: s) = frame.opening :: s := by
    cases frame <;> exact fun s => rfl
  cases texts with
  | nil =>
    have solid : isBlank frame.close = false := by cases frame <;> rfl
    have one : skipOne frames (frame.opening :: (inner.bytes ++ frame.close :: rest)) =
        skipAfter frames rest := by
      cases frame <;>
        simp only [skipOne, front, skipBlanks_blanks, skipBlanks_cons solid, if_true] <;> rfl
    rw [separated, List.nil_append, skipFrom_eq, one]
    rfl
  | cons one texts =>
    have ends := endsNumber_separated texts frame rest
    have first := fills one List.mem_cons_self
    obtain ⟨b, tail, opens, notClose⟩ := first.opens (separated false texts ++ frame.close :: rest)
    have goes := first.goes frames _ ends
    rw [← enter_skipBlanks, opens] at goes
    have entered : skipOne frames (frame.opening :: (inner.bytes ++
        (separated true (one :: texts) ++ frame.close :: rest))) =
        (enter frame (b :: tail)).map (frame :: frames, ·) := by
      cases frame <;>
        simp only [skipOne, front, separated, List.append_assoc, skipBlanks_blanks, opens,
          notClose, if_false] <;> rfl
    have later := skipOnward_separated
      (fun other member => fills other (List.mem_cons_of_mem _ member)) frames rest
    rw [skipFrom_eq, entered, ← later, ← goes]
    cases enter frame (b :: tail) <;> rfl

theorem fills_item (pad : Padding) {t : Tree}
    (passes : ∀ rest, EndsNumber rest → Passes (t.bytes ++ rest) rest) :
    Fills .list (pad.around t.bytes) where
  opens rest := by
    obtain ⟨b, tail, form, _, notClose⟩ := t.opens
    rw [Padding.around_append, t.skipBlanks_bytes, form]
    exact ⟨b, _, rfl, notClose⟩
  goes frames rest ends := by
    have value := passes_of_front (t.skipBlanks_bytes pad.before (pad.after.bytes ++ rest))
      (passes _ (endsNumber_blanks pad.after ends)) (.list :: frames)
    rw [Padding.around_append, ← skipOnward_blanks .list frames pad.after]
    exact value

theorem skipName_label (label : Label) (value rest : Bytes) :
    skipName (label.around value ++ rest) =
      .ok (label.ahead.bytes ++ (value ++ (label.after.bytes ++ rest))) := by
  rw [Label.around_append, skipName, skipBlanks_blanks,
    skipBlanks_cons (show isBlank quoteByte = false by decide)]
  simp only [if_true, skipQuoted_pieces, bind, Except.bind, readColon_label]

theorem fills_entry (label : Label) {t : Tree}
    (passes : ∀ rest, EndsNumber rest → Passes (t.bytes ++ rest) rest) :
    Fills .object (label.around t.bytes) where
  opens rest := by
    rw [Label.around_append, skipBlanks_blanks,
      skipBlanks_cons (show isBlank quoteByte = false by decide)]
    exact ⟨quoteByte, _, rfl, by decide⟩
  goes frames rest ends := by
    have value := passes_of_front (t.skipBlanks_bytes label.ahead (label.after.bytes ++ rest))
      (passes _ (endsNumber_blanks label.after ends)) (.object :: frames)
    rw [enter, skipName_label, ← skipOnward_blanks .object frames label.after]
    exact value

/-- Skipping goes over the text of every tree. -/
theorem Tree.passes (t : Tree) {rest : Bytes} (ends : EndsNumber rest) :
    Passes (t.bytes ++ rest) rest := by
  induction t using Tree.induction generalizing rest with
  | null => exact passes_scalar (by decide) (by decide) (by decide) rfl
  | flag b => cases b <;> exact passes_scalar (by decide) (by decide) (by decide) rfl
  | number l =>
    obtain ⟨b, tail, form, opens⟩ := opens_literal l
    obtain ⟨solid, _, _, _, _, notList, notObject⟩ := opens_number opens
    have scanned := scanNumeral_literal .invalidNumber l ends
    rw [Tree.bytes]
    rw [form, List.cons_append] at scanned ⊢
    exact passes_scalar solid notList notObject (skipScalar_numeral opens scanned)
  | text pieces =>
    rw [Tree.bytes, quotedBytes, List.cons_append, List.append_assoc, List.singleton_append]
    exact passes_scalar (by decide) (by decide) (by decide) (skipQuoted_pieces pieces rest)
  | list inner items ih =>
    have fills : ∀ one ∈ Tree.itemBytes items, Fills .list one := by
      intro one member
      rw [Tree.itemBytes_eq] at member
      obtain ⟨i, inside, rfl⟩ := List.mem_map.mp member
      exact fills_item i.1 fun rest ends => ih i inside ends
    simpa [Tree.bytes, Frame.opening] using passes_separated fills inner rest
  | object inner entries ih =>
    have fills : ∀ one ∈ Tree.entryBytes entries, Fills .object one := by
      intro one member
      rw [Tree.entryBytes_eq] at member
      obtain ⟨e, inside, rfl⟩ := List.mem_map.mp member
      exact fills_entry e.1 fun rest ends => ih e inside ends
    simpa [Tree.bytes, Frame.opening] using passes_separated fills inner rest

end RequestBus.Json
