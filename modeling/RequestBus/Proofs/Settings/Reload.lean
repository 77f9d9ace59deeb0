import RequestBus.Proofs.Settings.Effective
import RequestBus.Proofs.Settings.Sections

namespace RequestBus

namespace FileTree

variable {t u : FileTree} {names : List String} {content : Bytes}

theorem get?_set (some : names ≠ []) (entry : FileEntry) :
    (t.set names entry).get? names = .some entry := by
  simp [get?, set, some]

theorem resolve_congr (home : u.home = t.home) (path : String) :
    u.resolve path = t.resolve path := by
  simp only [resolve, home]

theorem write?_eq_some (written : t.write? names content = some u) :
    u.home = t.home ∧ ∃ mode, u.get? names = some (.file content mode) := by
  have some : names ≠ [] := by
    rintro rfl
    cases written
  unfold write? at written
  split at written
  · contradiction
  · cases written
    exact ⟨rfl, _, get?_set some _⟩
  · cases written
    exact ⟨rfl, _, get?_set some _⟩
  · contradiction

theorem setMode_file {mode : Nat} (file : t.get? names = some (.file content mode)) (next : Nat) :
    (t.setMode names next).home = t.home ∧
      (t.setMode names next).get? names = some (.file content next) := by
  have some : names ≠ [] := by
    rintro rfl
    cases file
  unfold setMode
  rw [file]
  exact ⟨rfl, get?_set some _⟩

end FileTree

namespace Settings

open FileTree

variable {env : Environment} {path dir : String} {content : Bytes}

/-- A private write that succeeds leaves the content where the path leads, for its owner alone. -/
theorem file_of_writePrivate {before after : FileTree}
    (written : writePrivate access path content before = (.ok (), after)) :
    after.get? (after.resolve path) = some (.file content ownerMode) := by
  simp only [writePrivate, access, bind, StateT.bind, pure] at written
  cases made : before.makeAlong [] (before.resolve ((Path.parent? path).getD "")) with
  | none =>
    simp only [attempt, made, Bool.false_eq_true, if_false] at written
    cases written
  | some there =>
    cases put : there.write? (there.resolve path) content with
    | none =>
      simp only [attempt, made, put, if_true, StateT.bind] at written
      cases written
    | some full =>
      simp only [attempt, made, put, if_true, StateT.bind] at written
      cases written
      obtain ⟨home, mode, file⟩ := write?_eq_some put
      rw [← resolve_congr home path] at file
      obtain ⟨still, restricted⟩ := setMode_file file ownerMode
      exact (congrArg _ (resolve_congr still path)).trans restricted

theorem load_file {files : FileTree} {mode : Nat}
    (file : files.get? (files.resolve (Path.join dir fileName)) = some (.file content mode)) :
    load access env (some dir) files = (ofContent env (Path.join dir fileName) content, files) := by
  simp only [load, directory, access, bind, StateT.bind, pure, file, Option.isSome_some, if_true]
  rfl

theorem override_of_unset
    (unset : ∀ name ∈ [passwordVariable, tokenVariable, poolSizeVariable], env name = none)
    (s : Settings) : s.override env = s := by
  simp only [List.forall_mem_cons] at unset
  obtain ⟨password, token, size, -⟩ := unset
  simp [override, secret?, password, token, size]

theorem ofContent_render
    (unset : ∀ name ∈ [passwordVariable, tokenVariable, poolSizeVariable], env name = none)
    {s : Settings} (valid : s.validate = .ok ()) :
    ofContent env s.path (Utf8.encode (render s)) = .ok s := by
  have same : override env { { s with path := "" } with path := s.path } = s :=
    override_of_unset unset s
  refine (ofContent_eq_ok (Utf8.decode?_encode (render s)) (parse_render s)).mpr ?_
  exact ⟨same.symm ▸ valid, same.symm⟩

/-- Settings that pass the check and are saved in a directory are loaded from it as they were, and
loading changes no file. -/
theorem load_save (env : Environment) (s : Settings) (dir : String) (before after : FileTree)
    (unset : ∀ name ∈ [passwordVariable, tokenVariable, poolSizeVariable], env name = none)
    (valid : s.validate = .ok ()) (path : s.path = Path.join dir fileName)
    (saved : save access s before = (.ok (), after)) :
    load access env (some dir) after = (.ok s, after) := by
  have file := file_of_writePrivate saved
  rw [path] at file
  rw [load_file file, ← path, ofContent_render unset valid]

def intricate : Settings :=
  { path := "c/config.toml"
    dispatch := { poolSize := 18446744073709551615 }
    amqp := some { AmqpSettings.example with
      port := 65535, vhost := "\u0000", password := "\"\"\"'''\\\n\té", queueName := some "" } }

theorem load_save_intricate : ∃ after, save access intricate ⟨[], []⟩ = (.ok (), after) ∧
    load access (fun _ => none) (some "c") after = (.ok intricate, after) := by
  obtain ⟨after, saved⟩ : ∃ after, save access intricate ⟨[], []⟩ = (.ok (), after) := ⟨_, rfl⟩
  refine ⟨after, saved, ?_⟩
  exact load_save _ intricate "c" _ after (fun _ _ => rfl) (by decide) (by decide) saved

end Settings

end RequestBus
