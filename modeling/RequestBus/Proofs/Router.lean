import Mathlib.Data.List.Dedup
import Mathlib.Data.List.Forall2
import RequestBus.Router
import RequestBus.Proofs.Text.Ascii
import RequestBus.Proofs.Text.Blank
import RequestBus.Proofs.Text.Split

namespace RequestBus.Router

/-- A query or a fragment with the mark that begins it, or nothing. -/
def IsQuery (cs : List Char) : Prop := ∀ c ∈ cs.head?, c = '?' ∨ c = '#'

def IsPlace (cs : List Char) : Prop := '?' ∉ cs ∧ '#' ∉ cs

/-- What counts of a path is what stands before the query or fragment, without the slashes at its
end. Where nothing is left the path counts as a slash. -/
inductive CountsAs : List Char → List Char → Prop
  | kept {kept query : List Char} (slashes : Nat) (given : kept ≠ []) (place : IsPlace kept)
      (ends : kept.getLast? ≠ some '/') (behind : IsQuery query) :
      CountsAs (kept ++ List.replicate slashes '/' ++ query) kept
  | root {query : List Char} (slashes : Nat) (behind : IsQuery query) :
      CountsAs (List.replicate slashes '/' ++ query) ['/']

/-- One path comes from another by appending queries and fragments, and slashes before them. -/
inductive ExtendsPath (path : List Char) : List Char → Prop
  | same : ExtendsPath path path
  | query {new : List Char} (earlier : ExtendsPath path new) (query : List Char)
      (behind : IsQuery query) : ExtendsPath path (new ++ query)
  | slash (place query : List Char) (earlier : ExtendsPath path (place ++ query))
      (front : IsPlace place) (behind : IsQuery query) : ExtendsPath path (place ++ '/' :: query)

def placeOf (path : List Char) : List Char := path.takeWhile fun c => c != '?' && c != '#'

theorem isPlace_append {one two : List Char} :
    IsPlace (one ++ two) ↔ IsPlace one ∧ IsPlace two := by
  simp only [IsPlace, List.mem_append, not_or]
  exact and_and_and_comm

theorem isPlace_replicate (n : Nat) : IsPlace (List.replicate n '/') := by
  simp [IsPlace, List.mem_replicate]

theorem placeOf_append {place query : List Char} (front : IsPlace place) (behind : IsQuery query) :
    placeOf (place ++ query) = place := by
  apply Text.takeWhile_append
  · intro c member
    have question : c ≠ '?' := fun same => front.1 (same ▸ member)
    have hash : c ≠ '#' := fun same => front.2 (same ▸ member)
    simp [question, hash]
  · intro c first
    rcases behind c first with rfl | rfl <;> rfl

theorem exists_query (path : List Char) :
    ∃ query, path = placeOf path ++ query ∧ IsPlace (placeOf path) ∧ IsQuery query := by
  refine ⟨_, List.takeWhile_append_dropWhile.symm, ⟨fun mark => ?_, fun mark => ?_⟩, ?_⟩
  · simpa using List.mem_takeWhile_imp mark
  · simpa using List.mem_takeWhile_imp mark
  · intro c first
    have stops := List.head?_dropWhile_not (fun c => c != '?' && c != '#') path
    rw [Option.mem_def.mp first] at stops
    simp only [Bool.and_eq_false_iff, bne_eq_false_iff_eq] at stops
    exact stops

theorem IsQuery.append {one two : List Char} (first : IsQuery one) (second : IsQuery two) :
    IsQuery (one ++ two) := by
  cases one with
  | nil => exact second
  | cons c one => exact first

theorem normalPath_eq (path : List Char) : normalPath path =
    if (placeOf path).rdropWhile (· == '/') = [] then ['/']
    else (placeOf path).rdropWhile (· == '/') := by
  simp only [normalPath]
  split
  · rename_i nothing
    exact (if_pos nothing).symm
  · rename_i some
    exact (if_neg some).symm

theorem rdropWhile_slashes (n : Nat) : (List.replicate n '/').rdropWhile (· == '/') = [] := by
  rw [List.rdropWhile_eq_nil_iff]
  intro c member
  simp [List.eq_of_mem_replicate member]

theorem normalPath_of_countsAs {path counted : List Char} (counts : CountsAs path counted) :
    normalPath path = counted := by
  cases counts with
  | kept slashes given place ends behind =>
    have stays : ∀ c ∈ counted.getLast?, (c == '/') = false := by
      intro c last
      exact beq_false_of_ne fun same => ends (same ▸ last)
    have whole := isPlace_append.mpr ⟨place, isPlace_replicate slashes⟩
    rw [normalPath_eq, placeOf_append whole behind,
      Text.rdropWhile_append stays, rdropWhile_slashes, List.append_nil, if_neg given]
  | root slashes behind =>
    rw [normalPath_eq, placeOf_append (isPlace_replicate slashes) behind,
      if_pos (rdropWhile_slashes slashes)]

theorem countsAs_normalPath (path : List Char) : CountsAs path (normalPath path) := by
  obtain ⟨query, whole, front, behind⟩ := exists_query path
  obtain ⟨slashes, closing⟩ : ∃ n, (placeOf path).rtakeWhile (· == '/') = List.replicate n '/' :=
    ⟨_, List.eq_replicate_of_mem fun c member => by simpa using List.mem_rtakeWhile_imp member⟩
  have split := List.rdropWhile_append_rtakeWhile (p := (· == '/')) (l := placeOf path)
  rw [closing] at split
  rw [← split] at whole front
  rw [normalPath_eq]
  by_cases given : (placeOf path).rdropWhile (· == '/') = []
  · rw [given, List.nil_append] at whole
    rw [if_pos given, whole]
    exact .root slashes behind
  · have ends : ((placeOf path).rdropWhile (· == '/')).getLast? ≠ some '/' := by
      rw [List.getLast?_eq_some_getLast given]
      intro same
      have stays := List.rdropWhile_last_not (· == '/') (placeOf path) given
      exact stays (by simp [Option.some.inj same])
    have counts := CountsAs.kept slashes given (isPlace_append.mp front).1 ends behind
    rw [← whole] at counts
    rw [if_neg given]
    exact counts

theorem normalPath_eq_iff {path counted : List Char} :
    normalPath path = counted ↔ CountsAs path counted :=
  ⟨fun same => same ▸ countsAs_normalPath path, normalPath_of_countsAs⟩

theorem CountsAs.again {path counted : List Char} (counts : CountsAs path counted) :
    CountsAs counted counted := by
  have nothing : IsQuery [] := nofun
  cases counts with
  | kept _ given place ends _ => simpa using CountsAs.kept 0 given place ends nothing
  | root _ _ => exact .root 1 nothing

theorem normalPath_normalPath (path : List Char) : normalPath (normalPath path) = normalPath path :=
  normalPath_of_countsAs (countsAs_normalPath path).again

theorem normalPath_extended {path new : List Char} (extended : ExtendsPath path new) :
    normalPath new = normalPath path := by
  induction extended with
  | same => rfl
  | @query new _ query behind ih =>
    obtain ⟨rest, whole, front, tail⟩ := exists_query new
    -- A query behind a query is one query, so the place is still that of the earlier path.
    have place : placeOf (new ++ query) = placeOf new := by
      conv_lhs => rw [whole]
      rw [List.append_assoc, placeOf_append front (tail.append behind)]
    rw [← ih, normalPath_eq, normalPath_eq, place]
  | slash place query _ front behind ih =>
    have longer : IsPlace (place ++ ['/']) := isPlace_append.mpr ⟨front, isPlace_replicate 1⟩
    have places : placeOf (place ++ '/' :: query) = place ++ ['/'] := by
      rw [List.append_cons, placeOf_append longer behind]
    rw [← ih, normalPath_eq, normalPath_eq, places, placeOf_append front behind,
      List.rdropWhile_concat_pos _ _ _ rfl]

structure Registration where
  method : String
  path : String
  route : Route

namespace Registration

def key (r : Registration) : RouteKey := .of r.method r.path

def Fits (r : Registration) (request : Request) : Prop :=
  Text.upper r.method = Text.upper request.method ∧
    normalPath r.path.toList = normalPath request.path.toList

theorem key_eq_iff {r : Registration} {request : Request} :
    r.key = RouteKey.of request.method request.path ↔ r.Fits request := by
  simp [Fits, key, RouteKey.of, String.ofList_inj]

end Registration

def ofRegistrations (rs : List Registration) : Router :=
  rs.foldl (fun router r => router.register r.method r.path r.route) empty

def keys (router : Router) : List RouteKey := router.routes.map (·.1)

theorem find?_register (router : Router) (method path : String) (route : Route) (key : RouteKey) :
    (router.register method path route).find? key =
      if RouteKey.of method path = key then some route else router.find? key := by
  unfold find? register
  by_cases same : RouteKey.of method path = key
  · rw [if_pos same, List.find?_cons_of_pos (by simpa using same)]
    rfl
  · -- An entry that is looked for has another key than the one whose old entry is removed.
    have kept : ∀ e : RouteKey × Route,
        decide ((e.1 != RouteKey.of method path) = true ∧ (e.1 == key) = true) = (e.1 == key) := by
      intro e
      by_cases found : e.1 = key
      · simp [found, Ne.symm same]
      · simp [found]
    rw [if_neg same, List.find?_cons_of_neg (by simpa using same), List.find?_filter, funext kept]

theorem keys_register (router : Router) (method path : String) (route : Route) :
    (router.register method path route).keys =
      RouteKey.of method path :: router.keys.filter (· != RouteKey.of method path) := by
  simp only [keys, register, List.map_cons, List.filter_map]
  rfl

theorem ofRegistrations_concat (rs : List Registration) (r : Registration) :
    ofRegistrations (rs ++ [r]) = (ofRegistrations rs).register r.method r.path r.route := by
  simp [ofRegistrations]

theorem keys_ofRegistrations (rs : List Registration) :
    (ofRegistrations rs).keys.Nodup ∧
      ∀ key, key ∈ (ofRegistrations rs).keys ↔ key ∈ rs.map Registration.key := by
  -- The last registration is taken off, since it is the one in front of the table.
  induction rs using List.reverseRecOn with
  | nil => simp [ofRegistrations, keys, empty]
  | append_singleton rs r ih =>
    obtain ⟨nodup, mem⟩ := ih
    rw [ofRegistrations_concat, keys_register]
    constructor
    · rw [List.nodup_cons]
      exact ⟨by simp, nodup.filter _⟩
    · intro key
      by_cases same : key = r.key
      · simp [same, Registration.key]
      · have other : key ≠ RouteKey.of r.method r.path := same
        simp [mem, same, other]

theorem size_ofRegistrations (rs : List Registration) :
    (ofRegistrations rs).size = (rs.map Registration.key).dedup.length := by
  obtain ⟨nodup, mem⟩ := keys_ofRegistrations rs
  have same : (ofRegistrations rs).keys.Perm (rs.map Registration.key).dedup := by
    rw [List.perm_ext_iff_of_nodup nodup (List.nodup_dedup _)]
    intro key
    rw [mem, List.mem_dedup]
  rw [← same.length_eq, keys, List.length_map, size]

theorem find?_ofRegistrations (rs : List Registration) (key : RouteKey) :
    (ofRegistrations rs).find? key =
      (rs.reverse.find? fun r => r.key == key).map Registration.route := by
  induction rs using List.reverseRecOn with
  | nil => rfl
  | append_singleton rs r ih =>
    rw [ofRegistrations_concat, find?_register, List.reverse_append, List.reverse_singleton,
      List.singleton_append, ih, show RouteKey.of r.method r.path = r.key from rfl]
    by_cases same : r.key = key
    · rw [if_pos same, List.find?_cons_of_pos (by simpa using same)]
      rfl
    · rw [if_neg same, List.find?_cons_of_neg (by simpa using same)]

def IsLast (rs : List Registration) (request : Request) (i : Nat) : Prop :=
  (∃ r, rs[i]? = some r ∧ r.Fits request) ∧
    ∀ j r, i < j → rs[j]? = some r → ¬ r.Fits request

/-- The last registration for a request answers it; where there is none, nothing is found. -/
inductive Answered (rs : List Registration) (request : Request) : Response → Prop
  | last {i : Nat} {r : Registration} (here : rs[i]? = some r) (last : IsLast rs request i) :
      Answered rs request (r.route request)
  | unknown {response : Response} (none : ∀ r ∈ rs, ¬ r.Fits request)
      (status : response.status = 404) (id : response.id = request.id) :
      Answered rs request response

structure Rewords (method path newMethod newPath : String) : Prop where
  method : Text.sameIgnoringCase newMethod method = true
  path : ExtendsPath path.toList newPath.toList

def Rewritten (rs news : List Registration) : Prop :=
  List.Forall₂ (fun r new => Rewords r.method r.path new.method new.path) rs news

variable {rs news : List Registration} {request asked : Request} {i : Nat}

theorem isLast_append {before after : List Registration} {r : Registration}
    (fits : r.Fits request) (none : ∀ s ∈ after, ¬ s.Fits request) :
    IsLast (before ++ r :: after) request before.length := by
  refine ⟨⟨r, by simp, fits⟩, fun j s later here => none s ?_⟩
  rw [List.getElem?_append_right (by omega), List.getElem?_cons, if_neg (by omega)] at here
  exact List.mem_of_getElem? here

theorem answered_handle (rs : List Registration) (request : Request) :
    Answered rs request ((ofRegistrations rs).handle request) := by
  have fits (r : Registration) :
      (r.key == RouteKey.of request.method request.path) = true ↔ r.Fits request := by
    rw [beq_iff_eq, Registration.key_eq_iff]
  rw [handle, find?_ofRegistrations]
  cases found : rs.reverse.find? fun r => r.key == RouteKey.of request.method request.path with
  | none =>
    rw [List.find?_eq_none] at found
    refine .unknown (fun r member fit => ?_) rfl rfl
    exact found r (List.mem_reverse.mpr member) ((fits r).mpr fit)
  | some r =>
    obtain ⟨fit, after, before, split, none⟩ := List.find?_eq_some_iff_append.mp found
    obtain rfl : rs = before.reverse ++ r :: after.reverse := by
      have whole := congrArg List.reverse split
      simpa using whole
    refine .last (by simp) (isLast_append ((fits r).mp fit) fun s member fit => ?_)
    have other := none s (List.mem_reverse.mp member)
    rw [(fits s).mpr fit] at other
    exact absurd other (by simp)

theorem getElem?_of_forall₂ {R : α → β → Prop} {xs : List α} {ys : List β}
    (each : List.Forall₂ R xs ys) {x : α} (here : xs[i]? = some x) :
    ∃ y, ys[i]? = some y ∧ R x y := by
  induction each generalizing i with
  | nil => simp at here
  | @cons a b xs ys related _ ih =>
    cases i with
    | zero =>
      obtain rfl : a = x := by simpa using here
      exact ⟨b, rfl, related⟩
    | succ i => exact ih (by simpa using here)

theorem isLast_of_alike
    (alike : List.Forall₂ (fun r new => r.Fits request ↔ new.Fits asked) rs news)
    (last : IsLast rs request i) : IsLast news asked i := by
  obtain ⟨⟨r, here, fits⟩, none⟩ := last
  obtain ⟨new, there, same⟩ := getElem?_of_forall₂ alike here
  refine ⟨⟨new, there, same.mp fits⟩, fun j s later there fits => ?_⟩
  obtain ⟨r, here, same⟩ := getElem?_of_forall₂ alike.flip there
  exact none j r later here (same.mpr fits)

theorem isLast_rewritten (registered : Rewritten rs news)
    (asks : Rewords request.method request.path asked.method asked.path) :
    IsLast news asked i ↔ IsLast rs request i := by
  have alike : List.Forall₂ (fun r new => r.Fits request ↔ new.Fits asked) rs news := by
    refine registered.imp fun r new rewords => ?_
    unfold Registration.Fits
    rw [Text.sameIgnoringCase_iff.mp rewords.method, Text.sameIgnoringCase_iff.mp asks.method,
      normalPath_extended rewords.path, normalPath_extended asks.path]
  have back : List.Forall₂ (fun new r => new.Fits asked ↔ r.Fits request) news rs :=
    alike.flip.imp fun _ _ same => same.symm
  exact ⟨isLast_of_alike back, isLast_of_alike alike⟩

/-- What was registered last for a request answers it, however the two are written. What counts of a
path counts as itself, and a router has as many routes as methods and paths were registered. -/
theorem last_registration_answers (rs : List Registration) :
    (∀ request, Answered rs request ((ofRegistrations rs).handle request)) ∧
    (∀ news request asked, Rewritten rs news →
      Rewords request.method request.path asked.method asked.path →
        ∀ i, IsLast news asked i ↔ IsLast rs request i) ∧
    (∀ path counted, normalPath path = counted ↔ CountsAs path counted) ∧
    (∀ path, normalPath (normalPath path) = normalPath path) ∧
    (ofRegistrations rs).size = (rs.map Registration.key).dedup.length := by
  refine ⟨answered_handle rs, ?_, ?_, normalPath_normalPath, size_ofRegistrations rs⟩
  · intro news request asked registered asks i
    exact isLast_rewritten registered asks
  · intro path counted
    exact normalPath_eq_iff

def twins : List Registration := [⟨"GET", "/a", noRoute⟩, ⟨"GET", "/a", noRoute⟩]

def twinsRewritten : List Registration := [⟨"get", "/a/", noRoute⟩, ⟨"Get", "/a#top", noRoute⟩]

theorem last_registration_answers_of_twins :
    let request : Request := ⟨"r", "GET", "/a", Dictionary.empty, [], none⟩
    let asked : Request := ⟨"s", "gEt", "/a/?x", Dictionary.empty, [], none⟩
    Rewritten twins twinsRewritten ∧
      Rewords request.method request.path asked.method asked.path ∧
        IsLast twinsRewritten asked 1 := by
  intro request asked
  have slashed : ExtendsPath ['/', 'a'] ['/', 'a', '/'] :=
    .slash ['/', 'a'] [] .same (by simp [IsPlace]) nofun
  have marked : ExtendsPath ['/', 'a'] ['/', 'a', '#', 't', 'o', 'p'] :=
    .query .same ['#', 't', 'o', 'p'] (by simp [IsQuery])
  have queried : ExtendsPath ['/', 'a'] ['/', 'a', '/', '?', 'x'] :=
    .query slashed ['?', 'x'] (by simp [IsQuery])
  have registered : Rewritten twins twinsRewritten :=
    .cons ⟨by decide, by simpa using slashed⟩ (.cons ⟨by decide, by simpa using marked⟩ .nil)
  have asks : Rewords request.method request.path asked.method asked.path :=
    ⟨by decide, by simpa [request, asked] using queried⟩
  have last : IsLast ([⟨"GET", "/a", noRoute⟩] ++ [⟨"GET", "/a", noRoute⟩]) request 1 :=
    isLast_append ⟨rfl, rfl⟩ nofun
  exact ⟨registered, asks,
    ((last_registration_answers twins).2.1 _ request asked registered asks 1).mpr last⟩

end RequestBus.Router
