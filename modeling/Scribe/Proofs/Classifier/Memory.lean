import Scribe.Proofs.Classifier.Hazards

/-!
# What a classifier remembers

A classifier is asked to load models and to classify texts, while the files change around it. It
answers with the model that a file held when it was first loaded with success, under any spelling
of its path; a load that fails leaves no trace. As long as the files hold the same models, it
answers as if it remembered nothing.
-/
namespace Scribe

def answerWith (loaded : Except LoadFault Model) (text : String) :
    Except Crash (Except ClassifierError (Verdict CodePoints)) :=
  match loaded with
  | .ok model => .ok (model.predict text.toList)
  | .error (.refused error) => .ok (.error error)
  | .error (.crashed crash) => .error crash

namespace Cache

inductive Request where
  | load (path : String)
  | classify (path text : String)
deriving DecidableEq, Repr

def Request.path : Request → String
  | .load path => path
  | .classify path _ => path

variable {cache : Cache} {files : Files} {path : String}

/-- Without a path nothing is loaded; a model that is known is used; and one that is not is read,
and known from then on if it can be read. -/
theorem load_cases (cache : Cache) (files : Files) (path : String) :
    (path = "" ∧ cache.load files path = (.error (.refused .noPath), cache)) ∨
    (path ≠ "" ∧ ∃ model, cache.lookup (Path.normalize path) = some model ∧
      cache.load files path = (.ok model, cache)) ∨
    (path ≠ "" ∧ cache.lookup (Path.normalize path) = none ∧
      ((∃ model, readModel files path = .ok model ∧
        cache.load files path = (.ok model, (Path.normalize path, model) :: cache)) ∨
      ∃ fault, readModel files path = .error fault ∧
        cache.load files path = (.error fault, cache))) := by
  by_cases hpath : path = ""
  · exact .inl ⟨hpath, by simp [load, hpath]⟩
  · refine .inr ?_
    cases hlookup : cache.lookup (Path.normalize path) with
    | some model => exact .inl ⟨hpath, model, rfl, by simp [load, hpath, hlookup]⟩
    | none =>
      refine .inr ⟨hpath, rfl, ?_⟩
      cases hread : readModel files path with
      | ok model => exact .inl ⟨model, rfl, by simp [load, hpath, hlookup, hread]⟩
      | error fault => exact .inr ⟨fault, rfl, by simp [load, hpath, hlookup, hread]⟩

/-- What a load gives: the model that is known, or else what the files hold. -/
def recalled (known : Option Model) (files : Files) (path : String) : Except LoadFault Model :=
  if path = "" then .error (.refused .noPath)
  else
    match known with
    | some model => .ok model
    | none => readModel files path

theorem load_result (cache : Cache) (files : Files) (path : String) :
    (cache.load files path).1 = recalled (cache.lookup (Path.normalize path)) files path := by
  unfold recalled
  rcases load_cases cache files path with ⟨rfl, h⟩ | ⟨hpath, model, hlookup, h⟩ |
    ⟨hpath, hlookup, ⟨model, hread, h⟩ | ⟨fault, hread, h⟩⟩
  · rw [h, if_pos rfl]
  · rw [h, if_neg hpath, hlookup]
  · rw [h, if_neg hpath, hlookup, hread]
  · rw [h, if_neg hpath, hlookup, hread]

def readAs? (key : String) (files : Files) (path : String) : Option Model :=
  if path ≠ "" ∧ Path.normalize path = key then (readModel files path).toOption else none

theorem readAs?_eq_some {key : String} {model : Model} :
    readAs? key files path = some model ↔
      path ≠ "" ∧ Path.normalize path = key ∧ readModel files path = .ok model := by
  unfold readAs?
  by_cases hpath : path ≠ "" ∧ Path.normalize path = key
  · rw [if_pos hpath]
    cases readModel files path <;> simp [Except.toOption, hpath]
  · rw [if_neg hpath]
    exact ⟨nofun, fun h => absurd ⟨h.1, h.2.1⟩ hpath⟩

/-- A load remembers a model that is new, and nothing else. -/
theorem lookup_load (cache : Cache) (files : Files) (path key : String) :
    (cache.load files path).2.lookup key =
      (cache.lookup key).or (readAs? key files path) := by
  unfold readAs?
  rcases load_cases cache files path with ⟨rfl, h⟩ | ⟨hpath, model, hlookup, h⟩ |
    ⟨hpath, hlookup, ⟨model, hread, h⟩ | ⟨fault, hread, h⟩⟩
  · simp [h]
  · rw [h]
    by_cases hkey : Path.normalize path = key
    · simp [← hkey, hlookup]
    · simp [hkey]
  · rw [h, List.lookup_cons]
    by_cases hkey : Path.normalize path = key
    · subst hkey
      simp [hlookup, hpath, hread, Except.toOption]
    · have hne : (key == Path.normalize path) = false := beq_false_of_ne (Ne.symm hkey)
      simp [hne, hkey]
  · simp [h, hread, Except.toOption]

/-- A load that fails leaves everything as it was, and the path is read again the next time. -/
theorem load_of_error {fault : LoadFault} (he : (cache.load files path).1 = .error fault) :
    (cache.load files path).2 = cache ∧
      (path ≠ "" → ∀ files', (cache.load files' path).1 = readModel files' path) := by
  rcases load_cases cache files path with ⟨hempty, h⟩ | ⟨-, model, -, h⟩ |
    ⟨hpath, hlookup, ⟨model, -, h⟩ | ⟨fault, -, h⟩⟩
  · rw [h]
    exact ⟨rfl, fun hpath => absurd hempty hpath⟩
  · rw [h] at he
    cases he
  · rw [h] at he
    cases he
  · rw [h]
    refine ⟨rfl, fun _ files' => ?_⟩
    rw [load_result, hlookup, recalled, if_neg hpath]

theorem classify_result (cache : Cache) (files : Files) (path text : String) :
    cache.classify files path text =
      (answerWith (cache.load files path).1 text, (cache.load files path).2) := by
  unfold classify answerWith
  cases hload : cache.load files path with
  | mk result cache' =>
    cases result with
    | ok model => rfl
    | error fault => cases fault <;> rfl

def serve (cache : Cache) (files : Files) : Request → Cache
  | .load path => (cache.load files path).2
  | .classify path text => (cache.classify files path text).2

/-- The models that a new classifier knows after requests, each of which finds files of its own. -/
def after (history : List (Files × Request)) : Cache :=
  history.foldl (fun cache event => cache.serve event.1 event.2) []

/-- The model that a path, written as `key`, led to when it was first loaded with success. -/
def firstModel? (key : String) (history : List (Files × Request)) : Option Model :=
  history.findSome? fun event => readAs? key event.1 event.2.path

theorem firstModel?_cons (key : String) (event : Files × Request)
    (rest : List (Files × Request)) :
    firstModel? key (event :: rest) =
      (readAs? key event.1 event.2.path).or (firstModel? key rest) := by
  rw [firstModel?, List.findSome?_cons]
  cases readAs? key event.1 event.2.path <;> rfl

theorem serve_eq_load (cache : Cache) (files : Files) (request : Request) :
    cache.serve files request = (cache.load files request.path).2 := by
  cases request with
  | load path => rfl
  | classify path text => rw [serve, classify_result, Request.path]

theorem lookup_foldl (history : List (Files × Request)) (cache : Cache) (key : String) :
    (history.foldl (fun cache event => cache.serve event.1 event.2) cache).lookup key =
      (cache.lookup key).or (firstModel? key history) := by
  induction history generalizing cache with
  | nil => simp [firstModel?]
  | cons event rest ih =>
    rw [List.foldl_cons, ih, serve_eq_load, lookup_load, Option.or_assoc, firstModel?_cons]

/-- A classifier knows the first model of every path, and no other. -/
theorem lookup_after (history : List (Files × Request)) (key : String) :
    (after history).lookup key = firstModel? key history := by
  rw [after, lookup_foldl]
  rfl

/-- What happens to other paths is of no account. -/
theorem firstModel?_filter (history : List (Files × Request)) (key : String) :
    firstModel? key (history.filter fun event => Path.normalize event.2.path == key) =
      firstModel? key history := by
  induction history with
  | nil => rfl
  | cons event rest ih =>
    by_cases hkey : Path.normalize event.2.path = key
    · rw [List.filter_cons_of_pos (by simpa using hkey), firstModel?_cons, firstModel?_cons, ih]
    · have hnone : readAs? key event.1 event.2.path = none := if_neg fun h => hkey h.2
      rw [List.filter_cons_of_neg (by simpa using hkey), ih, firstModel?_cons, hnone,
        Option.none_or]

/-- Every model that is known is the one that its path leads to in any of the files. -/
def Coherent (J : Files → Prop) (cache : Cache) : Prop :=
  ∀ key model, cache.lookup key = some model → ∀ files, J files → ∀ path,
    Path.normalize path = key → readModel files path = .ok model

def SameModels (J : Files → Prop) : Prop :=
  ∀ files files', J files → J files' → ∀ path model,
    readModel files path = .ok model → readModel files' path = .ok model

variable {J : Files → Prop}

theorem coherent_nil : Coherent J [] := nofun

theorem Coherent.load (hc : Coherent J cache) (hJ : SameModels J) (hf : J files) (path : String) :
    Coherent J (cache.load files path).2 := by
  intro key model hlookup files' hf' path' hkey
  rw [lookup_load, Option.or_eq_some_iff] at hlookup
  rcases hlookup with hlookup | ⟨-, hlookup⟩
  · exact hc key model hlookup files' hf' path' hkey
  · obtain ⟨-, hpath, hread⟩ := readAs?_eq_some.mp hlookup
    exact hJ files files' hf hf' path' model (readModel_congr hread (hpath.trans hkey.symm))

theorem coherent_after (hJ : SameModels J) {history : List (Files × Request)}
    (hall : ∀ event ∈ history, J event.1) : Coherent J (after history) := by
  intro key model hlookup files hf path hkey
  rw [lookup_after] at hlookup
  obtain ⟨event, hevent, hread⟩ := List.exists_of_findSome?_eq_some hlookup
  obtain ⟨-, hpath, hread⟩ := readAs?_eq_some.mp hread
  exact hJ event.1 files (hall event hevent) hf path model
    (readModel_congr hread (hpath.trans hkey.symm))

/-- A memory that is coherent makes no difference. -/
theorem Coherent.load_result (hc : Coherent J cache) (hf : J files) (path : String) :
    (cache.load files path).1 = (Cache.load [] files path).1 := by
  rw [Cache.load_result, Cache.load_result, List.lookup_nil]
  cases hlookup : cache.lookup (Path.normalize path) with
  | none => rfl
  | some model =>
    unfold recalled
    rw [hc _ model hlookup files hf path rfl]

theorem Coherent.classify_result (hc : Coherent J cache) (hf : J files) (path text : String) :
    (cache.classify files path text).1 = (Cache.classify [] files path text).1 := by
  rw [Cache.classify_result, Cache.classify_result, hc.load_result hf]

end Cache
end Scribe
