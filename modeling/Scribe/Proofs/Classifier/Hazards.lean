import Scribe.Classifier.Cache
import Scribe.Proofs.Classifier.Models
import Scribe.Proofs.Datum.LongNumbers

/-!
# Reading model files

Whatever a file holds, it is read as a model or refused with a message, but for three hazards: a
path that is too long to be asked for, a whole number that is too long to be read, and a whole
number beyond all doubles among the numbers of the model. These end a run, and nothing else does.
-/
namespace Scribe

namespace Files
variable {files : Files} {path : String}

/-- What can be read is a file. -/
theorem isFile_of_readText {source : List Char} (h : files.readText path = .ok source) :
    files.isFile path = .ok true := by
  unfold readText readBytes at h
  unfold isFile look
  cases hplace : files.resolve path with
  | error cause =>
    rw [hplace] at h
    cases h
  | ok names =>
    rw [hplace] at h
    dsimp only at h ⊢
    cases hentry : files.entry? names with
    | none =>
      rw [hentry] at h
      cases h
    | some entry =>
      cases entry with
      | file bytes => rfl
      | directory =>
        rw [hentry] at h
        cases h

end Files

/-- What ends a run that reads the model at a path. -/
inductive Hazard (files : Files) (path : String) : Crash → Prop where
  | place (hplace : files.resolve (Path.normalize path) = .error .nameTooLong) :
    Hazard files path (.file ⟨.nameTooLong, Path.normalize path⟩)
  | long {source : List Char} {fault : Datum.Fault} {count : Nat}
    (hsource : files.readText (Path.normalize path) = .ok source)
    (hread : Datum.read source = .error fault) (hcause : fault.cause = .tooManyDigits count) :
    Hazard files path (.numberTooLong count)
  | large {source : List Char} {d : RawDatum}
    (hsource : files.readText (Path.normalize path) = .ok source)
    (hread : Datum.read source = .ok d) (hlarge : Model.Oversized d) :
    Hazard files path .numberTooLarge

theorem Hazard.digits {files : Files} {path : String} {count : Nat}
    (h : Hazard files path (.numberTooLong count)) :
    ∃ source, files.readText (Path.normalize path) = .ok source ∧ Datum.HasDigits source count := by
  cases h with
  | long hsource hread hcause => exact ⟨_, hsource, Datum.digits_of_read hread hcause⟩

namespace Cache
variable {files : Files} {path : String} {crash : Crash} {model : Model}

theorem readModel_of_error {source : List Char} {fault : Datum.Fault}
    (hsource : files.readText (Path.normalize path) = .ok source)
    (hread : Datum.read source = .error fault) :
    readModel files path = .error (.ofData path source fault) := by
  unfold readModel
  simp only [Files.isFile_of_readText hsource, hsource, hread]

theorem readModel_of_ok {source : List Char} {d : RawDatum}
    (hsource : files.readText (Path.normalize path) = .ok source)
    (hread : Datum.read source = .ok d) :
    readModel files path = (Model.ofDatum path d).mapError LoadFault.ofModel := by
  unfold readModel
  simp only [Files.isFile_of_readText hsource, hsource, hread]

theorem mapError_eq_ok {loaded : Except ModelFault Model} :
    loaded.mapError LoadFault.ofModel = .ok model ↔ loaded = .ok model := by
  cases loaded with
  | ok found =>
    change Except.ok found = .ok model ↔ _
    simp
  | error fault =>
    refine ⟨fun h => ?_, fun h => ?_⟩
    · cases h
    · cases h

theorem readModel_eq_ok :
    readModel files path = .ok model ↔
      ∃ source d, files.readText (Path.normalize path) = .ok source ∧ Datum.read source = .ok d ∧
        Model.ofDatum path d = .ok model := by
  cases hsource : files.readText (Path.normalize path) with
  | error fault =>
    refine ⟨fun h => ?_, nofun⟩
    unfold readModel at h
    rw [hsource] at h
    split at h <;> cases h
  | ok source =>
    cases hread : Datum.read source with
    | error fault =>
      rw [readModel_of_error hsource hread]
      refine ⟨nofun, ?_⟩
      rintro ⟨_, _, ⟨⟩, hd, -⟩
      rw [hread] at hd
      cases hd
    | ok d =>
      rw [readModel_of_ok hsource hread, mapError_eq_ok]
      constructor
      · exact fun h => ⟨source, d, rfl, hread, h⟩
      · rintro ⟨_, _, ⟨⟩, hd, h⟩
        cases hread.symm.trans hd
        exact h

/-- A path spelled otherwise leads to the same model. -/
theorem readModel_congr {path' : String} (h : readModel files path = .ok model)
    (hp : Path.normalize path = Path.normalize path') : readModel files path' = .ok model := by
  obtain ⟨source, d, hsource, hread, hd⟩ := readModel_eq_ok.mp h
  exact readModel_eq_ok.mpr ⟨source, d, hp ▸ hsource, hread, Model.ofDatum_congr hd path'⟩

end Cache

end Scribe
