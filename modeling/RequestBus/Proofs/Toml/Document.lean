import RequestBus.Proofs.Dictionary
import RequestBus.Proofs.Toml.Scalar

namespace RequestBus.Toml

structure BareName (name : String) : Prop where
  some : name.toList ≠ []
  bare : ∀ c ∈ name.toList, isBareKeyChar c = true

theorem bareName_of_all {name : String}
    (looks : name.toList ≠ [] && name.toList.all isBareKeyChar) : BareName name := by
  obtain ⟨some, bare⟩ := Bool.and_eq_true_iff.mp looks
  exact ⟨of_decide_eq_true some, List.all_eq_true.mp bare⟩

section Keys
variable {name : String} {next : Char} {rest : List Char}

theorem BareName.head (bare : BareName name) : ∃ first more, name.toList = first :: more ∧
    isBareKeyChar first = true := by
  cases whole : name.toList with
  | nil => exact absurd whole bare.some
  | cons first more =>
    exact ⟨first, more, rfl, bare.bare first (whole ▸ List.mem_cons_self)⟩

theorem ne_of_bare {c mark : Char} (bare : isBareKeyChar c = true)
    (other : isBareKeyChar mark = false) : c ≠ mark := by
  rintro rfl
  rw [bare] at other
  contradiction

theorem skipSpace_cons {c : Char} (solid : c ≠ ' ' ∧ c ≠ '\t') (rest : List Char) :
    skipSpace (c :: rest) = c :: rest := by
  simp [skipSpace, solid.1, solid.2]

theorem BareName.skipSpace (bare : BareName name) (rest : List Char) :
    skipSpace (name.toList ++ rest) = name.toList ++ rest := by
  obtain ⟨first, more, whole, initial⟩ := bare.head
  rw [whole]
  exact skipSpace_cons ⟨ne_of_bare initial (by decide), ne_of_bare initial (by decide)⟩ _

theorem readName_bare (bare : BareName name) (ends : isBareKeyChar next = false) :
    readName (name.toList ++ next :: rest) = some (name, next :: rest) := by
  have taken : (name.toList ++ next :: rest).takeWhile isBareKeyChar = name.toList := by
    rw [List.takeWhile_append_of_pos bare.bare, List.takeWhile_cons, ends]
    simp
  have left : (name.toList ++ next :: rest).dropWhile isBareKeyChar = next :: rest := by
    rw [List.dropWhile_append_of_pos bare.bare, List.dropWhile_cons, ends]
    simp
  obtain ⟨first, more, whole, initial⟩ := bare.head
  unfold readName
  split
  · rename_i same
    rw [whole] at same
    exact absurd (List.cons.inj same).1 (ne_of_bare initial (by decide))
  · rename_i same
    rw [whole] at same
    exact absurd (List.cons.inj same).1 (ne_of_bare initial (by decide))
  · rw [taken, left]
    simp [bare.some]

theorem readNames_bare (bare : BareName name) {after : List Char}
    (ends : isBareKeyChar next = false) (skipped : skipSpace (next :: rest) = after)
    (last : after.head? ≠ some '.') (fuel : Nat) :
    readNames (fuel + 1) (name.toList ++ next :: rest) = some ([name], after) := by
  unfold readNames
  rw [bare.skipSpace, readName_bare bare ends]
  simp only [Option.bind_eq_bind, Option.bind_some, skipped]
  split
  · exact absurd rfl last
  · rfl

theorem readKey_equals (bare : BareName name) (rest : List Char) :
    readKey (name.toList ++ ' ' :: '=' :: rest) = some ([name], '=' :: rest) :=
  readNames_bare bare (by decide) (show skipSpace (' ' :: '=' :: rest) = '=' :: rest from rfl)
    (by simp) _

theorem readKey_bracket (bare : BareName name) (rest : List Char) :
    readKey (name.toList ++ ']' :: rest) = some ([name], ']' :: rest) :=
  readNames_bare bare (by decide) (show skipSpace (']' :: rest) = ']' :: rest from rfl) (by simp) _

end Keys

def Lines (cs : List Char) (lines : List Line) : Prop :=
  ∀ fuel, cs.length < fuel → readLinesOf fuel cs = some lines

section Lines
variable {name : String} {rest : List Char} {lines : List Line}

theorem lines_nil : Lines [] [] := by
  intro fuel _
  cases fuel <;> rfl

theorem Lines.line (behind : Lines rest lines) (text : List Char) (line : Option Line)
    (solid : skipSpace (text ++ '\n' :: rest) = text ++ '\n' :: rest)
    (read : readLineContent (text ++ '\n' :: rest) = some (line, '\n' :: rest)) :
    Lines (text ++ '\n' :: rest) (line.toList ++ lines) := by
  intro fuel enough
  rw [List.length_append, List.length_cons] at enough
  obtain ⟨fuel, rfl⟩ : ∃ n, fuel = n + 1 := ⟨fuel - 1, by omega⟩
  have onward := behind fuel (by omega)
  have end? : nextLine? (skipComment (Toml.skipSpace ('\n' :: rest))) = some rest := by
    rw [skipSpace_cons (by decide)]
    rfl
  unfold readLinesOf
  rw [if_neg (by simp), solid, read]
  simp only [Option.bind_eq_bind, Option.bind_some, end?, onward]
  rfl

theorem Lines.empty (behind : Lines rest lines) : Lines ('\n' :: rest) lines :=
  behind.line [] none rfl rfl

theorem Lines.header (behind : Lines rest lines) (bare : BareName name) :
    Lines ('[' :: name.toList ++ [']'] ++ '\n' :: rest) (.header [name] :: lines) := by
  refine behind.line ('[' :: name.toList ++ [']']) (some (.header [name])) rfl ?_
  obtain ⟨first, more, whole, initial⟩ := bare.head
  have key := readKey_bracket bare ('\n' :: rest)
  rw [List.append_assoc, List.cons_append]
  unfold readLineContent
  split
  · rename_i same
    rw [whole] at same
    exact absurd (List.cons.inj (List.cons.inj same).2).1 (ne_of_bare initial (by decide))
  · rename_i same
    cases same
    rw [List.singleton_append, key]
    rfl
  · contradiction
  · rename_i other same
    exact absurd (List.cons.inj same).1.symm other

theorem readEntry_plain (bare : BareName name) {d : Datum} {value : List Char}
    (solid : skipSpace (value ++ '\n' :: rest) = value ++ '\n' :: rest)
    (read : readTerm nesting (value ++ '\n' :: rest) = some (.scalar d, '\n' :: rest)) :
    readEntry (readTerm nesting) (name.toList ++ ' ' :: '=' :: ' ' :: (value ++ '\n' :: rest)) =
      some (([name], .scalar d), '\n' :: rest) := by
  have skipped : skipSpace (' ' :: (value ++ '\n' :: rest)) = value ++ '\n' :: rest := solid
  unfold readEntry
  rw [readKey_equals bare]
  simp only [Option.bind_eq_bind, Option.bind_some, skipped, read]
  rfl

theorem Lines.entry (behind : Lines rest lines) (bare : BareName name) {d : Datum}
    (plain : Plain d) :
    Lines (writeEntry name d ++ rest) (.entry [name] (.scalar d) :: lines) := by
  obtain ⟨value, initial, more, writes, begins, notSpace, notTab, reads⟩ := plain.readTerm nesting
  have solid : skipSpace (value ++ '\n' :: rest) = value ++ '\n' :: rest := by
    rw [begins]
    exact skipSpace_cons ⟨notSpace, notTab⟩ _
  have text : writeEntry name d ++ rest =
      (name.toList ++ ' ' :: '=' :: ' ' :: value) ++ '\n' :: rest := by
    simp [writeEntry, writes]
  have read := readEntry_plain bare solid (reads rest)
  rw [text]
  refine behind.line (name.toList ++ ' ' :: '=' :: ' ' :: value)
    (some (.entry [name] (.scalar d))) ?_ ?_
  · rw [List.append_assoc]
    exact bare.skipSpace _
  · rw [List.append_assoc]
    simp only [List.cons_append]
    obtain ⟨first, others, whole, key⟩ := bare.head
    have notBracket : first ≠ '[' := ne_of_bare key (by decide)
    have inside : ¬ (first = '#' ∨ first = '\n' ∨ first = '\r') := by
      rintro (rfl | rfl | rfl) <;> exact absurd key (by decide)
    rw [whole] at read ⊢
    simp only [List.cons_append] at read ⊢
    unfold readLineContent
    split
    · rename_i same
      exact absurd (List.cons.inj same).1 notBracket
    · rename_i same
      exact absurd (List.cons.inj same).1 notBracket
    · contradiction
    · rename_i same
      cases same
      rw [if_neg inside, read]
      rfl

end Lines

def tableLines (t : String × List (String × Datum)) : List Line :=
  .header [t.1] :: t.2.map fun e => .entry [e.1] (.scalar e.2)

structure Writable (entries : List (String × Datum)) : Prop where
  names : (entries.map Prod.fst).Nodup
  bare : ∀ e ∈ entries, BareName e.1
  plain : ∀ e ∈ entries, Plain e.2

theorem lines_entries {entries : List (String × Datum)}
    (writable : ∀ e ∈ entries, BareName e.1 ∧ Plain e.2) {rest : List Char} {lines : List Line}
    (behind : Lines rest lines) : Lines (entries.flatMap (fun e => writeEntry e.1 e.2) ++ rest)
      (entries.map (fun e => .entry [e.1] (.scalar e.2)) ++ lines) := by
  induction entries with
  | nil => exact behind
  | cons e entries ih =>
    obtain ⟨⟨bare, plain⟩, others⟩ := List.forall_mem_cons.mp writable
    rw [List.flatMap_cons, List.append_assoc]
    exact (ih others).entry bare plain

theorem lines_table {t : String × List (String × Datum)} (bare : BareName t.1)
    (writable : Writable t.2) {rest : List Char} {lines : List Line} (behind : Lines rest lines) :
    Lines (writeTable t.1 t.2 ++ rest) (tableLines t ++ lines) := by
  have entries := lines_entries (fun e member => ⟨writable.bare e member, writable.plain e member⟩)
    behind
  have whole := entries.header bare
  have text : writeTable t.1 t.2 ++ rest = '[' :: t.1.toList ++ [']'] ++
      '\n' :: (t.2.flatMap (fun e => writeEntry e.1 e.2) ++ rest) := by
    simp [writeTable]
  rw [text]
  exact whole

theorem lines_writeTables {tables : List (String × List (String × Datum))}
    (writable : ∀ t ∈ tables, BareName t.1 ∧ Writable t.2) :
    Lines (writeTables tables) (tables.flatMap tableLines) := by
  induction tables with
  | nil => exact lines_nil
  | cons t tables ih =>
    obtain ⟨⟨bare, entries⟩, others⟩ := List.forall_mem_cons.mp writable
    have behind := ih others
    rw [List.flatMap_cons]
    cases tables with
    | nil =>
      have alone := lines_table bare entries lines_nil
      rwa [List.append_nil] at alone
    | cons next more => exact lines_table bare entries behind.empty

def entryNodes (entries : List (String × Datum)) : Members :=
  entries.map fun e => (e.1, .scalar e.2)

theorem sections_entries (entries : List (String × Datum)) (lines : List Line) :
    sections (entries.map (fun e => .entry [e.1] (.scalar e.2)) ++ lines) =
      (entries.map (fun e => ([e.1], .scalar e.2)) ++ (sections lines).1, (sections lines).2) := by
  induction entries with
  | nil => rfl
  | cons e entries ih => simp only [List.map_cons, List.cons_append, sections, ih]

theorem sections_tables (tables : List (String × List (String × Datum))) :
    sections (tables.flatMap tableLines) = ([], tables.map fun t =>
      ⟨[t.1], false, t.2.map fun e => ([e.1], .scalar e.2)⟩) := by
  induction tables with
  | nil => rfl
  | cons t tables ih =>
    rw [List.flatMap_cons, tableLines, List.cons_append]
    simp only [sections, sections_entries, ih, List.append_nil, List.map_cons]

theorem entryNodes?_entries (entries : List (String × Datum)) :
    entryNodes? (entries.map fun e => ([e.1], .scalar e.2)) =
      some (entries.map fun e => ([e.1], .scalar e.2)) := by
  induction entries with
  | nil => rfl
  | cons e entries ih => simp [entryNodes?, Term.node?, ih]

section Members
variable {ms : Members} {name : String} {node : Node}

theorem Members.get?_eq_none : ms.get? name = none ↔ name ∉ ms.map Prod.fst := by
  rw [Members.get?, Option.map_eq_none_iff, List.find?_eq_none, List.mem_map]
  constructor
  · rintro none ⟨m, member, rfl⟩
    exact none m member (beq_self_eq_true _)
  · intro absent m member same
    exact absent ⟨m, member, eq_of_beq same⟩

theorem Members.set_new (fresh : name ∉ ms.map Prod.fst) :
    ms.set name node = (name, node) :: ms := by
  refine congrArg _ (List.filter_eq_self.mpr fun m member => ?_)
  have other : m.1 ≠ name := fun same => fresh (same ▸ List.mem_map_of_mem member)
  simpa using other

theorem Members.addAll_new {entries : List (String × Datum)}
    (names : (entries.map Prod.fst).Nodup) (fresh : ∀ e ∈ entries, e.1 ∉ ms.map Prod.fst) :
    Members.addAll ms (entries.map fun e => ([e.1], .scalar e.2)) =
      some ((entryNodes entries).reverse ++ ms) := by
  induction entries generalizing ms with
  | nil => rfl
  | cons e entries ih =>
    obtain ⟨here, others⟩ := List.forall_mem_cons.mp fresh
    obtain ⟨alone, distinct⟩ := List.nodup_cons.mp names
    have added : Members.add (.scalar e.2) false .opened [e.1] ms =
        some ((e.1, .scalar e.2) :: ms) := by
      simp [Members.add, Members.get?_eq_none.mpr here, Members.set_new here]
    have onward := @ih ((e.1, .scalar e.2) :: ms) distinct fun f member => by
      rw [List.map_cons, List.mem_cons, not_or]
      refine ⟨fun same => alone ?_, others f member⟩
      exact same ▸ List.mem_map_of_mem member
    simp only [List.map_cons, Members.addAll, added, Option.bind_eq_bind, Option.bind_some, onward,
      entryNodes, List.reverse_cons, List.append_assoc, List.singleton_append]

def tableNode (entries : List (String × Datum)) : Node :=
  .table .opened (entryNodes entries).reverse

theorem Members.open_new {t : String × List (String × Datum)} (names : (t.2.map Prod.fst).Nodup)
    (fresh : t.1 ∉ ms.map Prod.fst) :
    ms.open ⟨[t.1], false, t.2.map fun e => ([e.1], .scalar e.2)⟩ =
      some ((t.1, tableNode t.2) :: ms) := by
  have added := @Members.addAll_new [] _ names fun _ _ => List.not_mem_nil
  rw [List.append_nil] at added
  simp only [Members.open, entryNodes?_entries, Option.bind_eq_bind, Option.bind_some,
    Members.alter, Members.get?_eq_none.mpr fresh, added, Bool.false_eq_true, if_false,
    Option.map_some, Members.set_new fresh]
  rfl

theorem Members.openAll_new {tables : List (String × List (String × Datum))}
    (names : (tables.map Prod.fst).Nodup) (inside : ∀ t ∈ tables, (t.2.map Prod.fst).Nodup)
    (fresh : ∀ t ∈ tables, t.1 ∉ ms.map Prod.fst) :
    ms.openAll (tables.map fun t => ⟨[t.1], false, t.2.map fun e => ([e.1], .scalar e.2)⟩) =
      some ((tables.map fun t => (t.1, tableNode t.2)).reverse ++ ms) := by
  induction tables generalizing ms with
  | nil => rfl
  | cons t tables ih =>
    obtain ⟨here, others⟩ := List.forall_mem_cons.mp fresh
    obtain ⟨alone, distinct⟩ := List.nodup_cons.mp names
    obtain ⟨first, later⟩ := List.forall_mem_cons.mp inside
    have opened := Members.open_new first here
    have onward := @ih ((t.1, tableNode t.2) :: ms) distinct later fun u member => by
      rw [List.map_cons, List.mem_cons, not_or]
      refine ⟨fun same => alone ?_, others u member⟩
      exact same ▸ List.mem_map_of_mem member
    simp only [List.map_cons, Members.openAll, opened, Option.bind_eq_bind, Option.bind_some,
      onward, List.reverse_cons, List.append_assoc, List.singleton_append]

end Members

theorem nodeMembers_eq (ms : Members) : nodeMembers ms = ms.map fun m => (m.1, m.2.datum) := by
  induction ms with
  | nil => rfl
  | cons m ms ih =>
    obtain ⟨name, node⟩ := m
    simp only [nodeMembers, ih, List.map_cons]

def ordered (entries : List (String × Datum)) : Datum := .table (Dictionary.ofList entries).entries

theorem datum_tableNode {entries : List (String × Datum)} (names : (entries.map Prod.fst).Nodup) :
    (tableNode entries).datum = ordered entries := by
  have members : nodeMembers (entryNodes entries).reverse = entries.reverse := by
    rw [nodeMembers_eq, entryNodes, ← List.map_reverse, List.map_map]
    exact List.map_id' _
  rw [tableNode, Node.datum, members, Dictionary.ofList_reverse names, ordered]

structure WritableTables (tables : List (String × List (String × Datum))) : Prop where
  names : (tables.map Prod.fst).Nodup
  bare : ∀ t ∈ tables, BareName t.1
  entries : ∀ t ∈ tables, Writable t.2

theorem lines?_writeTables {tables : List (String × List (String × Datum))}
    (writable : WritableTables tables) :
    lines? (writeTables tables) = some (tables.flatMap tableLines) := by
  have lines := lines_writeTables fun t member =>
    ⟨writable.bare t member, writable.entries t member⟩
  cases tables with
  | nil => rfl
  | cons t tables =>
    obtain ⟨rest, whole⟩ : ∃ rest, writeTables (t :: tables) = '[' :: rest := by
      cases tables <;> exact ⟨_, rfl⟩
    rw [whole] at lines ⊢
    exact lines (rest.length + 2) (Nat.lt_succ_self _)

/-- Reading gives back what was written, in the order of the names. -/
theorem read?_writeTables {tables : List (String × List (String × Datum))}
    (writable : WritableTables tables) :
    read? (String.ofList (writeTables tables)) =
      some (ordered (tables.map fun t => (t.1, ordered t.2))) := by
  have inside : ∀ t ∈ tables, (t.2.map Prod.fst).Nodup := fun t member =>
    (writable.entries t member).names
  have opened := @Members.openAll_new [] _ writable.names inside fun _ _ => List.not_mem_nil
  have data : (tables.map fun t => (t.1, tableNode t.2)).map (fun m => (m.1, m.2.datum)) =
      tables.map fun t => (t.1, ordered t.2) := by
    rw [List.map_map]
    refine List.map_congr_left fun t member => ?_
    exact congrArg _ (datum_tableNode (inside t member))
  have names : ((tables.map fun t => (t.1, ordered t.2)).map Prod.fst).Nodup := by
    rw [List.map_map]
    exact writable.names
  unfold read?
  rw [String.toList_ofList, lines?_writeTables writable]
  simp only [Option.bind_eq_bind, Option.bind_some, sections_tables, entryNodes?, Members.addAll,
    opened, List.append_nil]
  rw [Node.datum, nodeMembers_eq, List.map_reverse, data, Dictionary.ofList_reverse names]
  rfl

end RequestBus.Toml
