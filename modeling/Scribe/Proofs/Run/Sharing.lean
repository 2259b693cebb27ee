import Scribe.Proofs.Classifier.Memory
import Scribe.Proofs.Run.Expanding
import Scribe.Proofs.Run.Visits

/-!
# Runs that share a classifier

The runs of an engine share the memory of its classifier. While the files hold the same models,
this makes no difference: whatever has been run before, a script gives what it gives on a new
engine. The files may change otherwise, and the logs of the engine may be among them.
-/
namespace Scribe.Run
open Script Cache

section Twin
variable {σ : Type} {R : σ → σ → Prop} {h : Host σ}

structure Session.Twin (R : σ → σ → Prop) (s s' : Session σ) : Prop where
  machine : s.machine = s'.machine
  world : R s.world s'.world

structure Host.Respects (h : Host σ) (R : σ → σ → Prop) : Prop where
  emit : ∀ line, (h.emit line).Respects R
  classify : ∀ f, h.classify = some f → ∀ model text, (f model text).Respects R
  expand : ∀ instruction, (h.expand instruction).Respects R

theorem Exec.world_respects {α : Type} {t : Task σ α} (ht : t.Respects R) :
    (Exec.world t).Respects (Session.Twin R) := by
  intro s s' hs
  obtain ⟨hresult, hafter⟩ := ht s.world s'.world hs.world
  exact ⟨hresult, hs.machine, hafter⟩

theorem Host.Respects.upholds (hh : h.Respects R) :
    h.Upholds (fun _ => True) fun _ t => t.Respects (Session.Twin R) where
  toChains := Task.Respects.chains _ fun _ _ _ => trivial
  machine := fun _ _ hs => ⟨congrArg Except.ok hs.machine, hs⟩
  change := fun f _ _ _ hs => ⟨rfl, congrArg f hs.machine, hs.world⟩
  emit := fun line => Exec.world_respects (hh.emit line)
  classify := fun f hf model _ text => Exec.world_respects (hh.classify f hf model text)

theorem Host.Respects.run (hh : h.Respects R) (source : List Char) (lineMap : List Int) :
    (runSource h source lineMap).Respects (Session.Twin R) :=
  hh.upholds.run (fun _ _ _ _ => trivial) fun _ _ _ instruction _ line =>
    hh.upholds.nested (fun _ => trivial)
      (fun instruction => Exec.world_respects (hh.expand instruction)) _ instruction line

end Twin

def filePaths (sinks : List Sink) : List String :=
  sinks.filterMap fun sink =>
    match sink with
    | .file path _ => some path
    | _ => none

def Config.logs (c : Config) : List String :=
  (if c.outputLog then [c.outputLogPath] else []) ++ if c.traceLog then [c.traceLogPath] else []

/-- Files that hold the same models, and still do when one of the paths is written to. -/
structure Undisturbed (J : Files → Prop) (written : List String) : Prop where
  models : SameModels J
  append : ∀ path ∈ written, ∀ text files, J files → J (Files.append path text files).2

variable {J : Files → Prop} {written : List String}

def Surroundings.Twin (J : Files → Prop) (a a' : Surroundings) : Prop :=
  a.files = a'.files ∧ J a.files

theorem Surroundings.change_run (change : Files.Change) (a : Surroundings) :
    Surroundings.change change a =
      ((change a.files).1.mapError Crash.file, { a with files := (change a.files).2 }) := rfl

theorem respects_append (hJ : Undisturbed J written) {path : String} (hp : path ∈ written)
    (text : String) : (Surroundings.append path text).Respects (Surroundings.Twin J) := by
  rintro a a' ⟨hfiles, hkept⟩
  have hafter := hJ.append path hp text a.files hkept
  rw [Surroundings.append, Surroundings.change_run, Surroundings.change_run, ← hfiles]
  generalize Files.append path text a.files = outcome at hafter
  exact ⟨rfl, rfl, hafter⟩

theorem respects_sink (hJ : Undisturbed J written) (line : String) {sink : Sink}
    (hs : filePaths [sink] ⊆ written) : (sink.emit line).Respects (Surroundings.Twin J) := by
  have hchains := Task.Respects.chains (Surroundings.Twin J) fun _ => trivial
  cases sink with
  | buffer lines => exact hchains.pure _
  | console mark =>
    refine hchains.seq ?_ fun _ => hchains.pure _
    exact fun _ _ ha => ⟨rfl, ha⟩
  | file path mark =>
    refine hchains.seq ?_ fun _ => hchains.pure _
    exact respects_append hJ (hs (by simp [filePaths])) _

/-- A sink that takes a line writes to the same file as before. -/
theorem filePaths_emit {line : String} {sink sink' : Sink} {a a' : Surroundings}
    (h : sink.emit line a = (.ok sink', a')) : filePaths [sink'] = filePaths [sink] := by
  cases sink with
  | buffer lines =>
    cases h
    rfl
  | console mark =>
    obtain ⟨-, _, -, hend⟩ := Task.bind_eq_ok h
    cases hend
    rfl
  | file path mark =>
    obtain ⟨-, _, -, hend⟩ := Task.bind_eq_ok h
    cases hend
    rfl

theorem filePaths_cons (sink : Sink) (sinks : List Sink) :
    filePaths (sink :: sinks) = filePaths [sink] ++ filePaths sinks := by
  cases sink <;> rfl

theorem emitAll_ok {line : String} {sink sink' : Sink} {a a₁ : Surroundings}
    (h : sink.emit line a = (.ok sink', a₁)) (rest : List Sink) :
    emitAll line (sink :: rest) a =
      ((emitAll line rest a₁).1, sink' :: (emitAll line rest a₁).2) := by
  simp only [emitAll, h]

theorem emitAll_error {line : String} {sink : Sink} {a a₁ : Surroundings} {crash : Crash}
    (h : sink.emit line a = (.error crash, a₁)) (rest : List Sink) :
    emitAll line (sink :: rest) a = ((.error crash, a₁), sink :: rest) := by
  simp only [emitAll, h]

theorem emitAll_twin (hJ : Undisturbed J written) (line : String) {sinks : List Sink}
    (hs : filePaths sinks ⊆ written) {a a' : Surroundings} (ha : Surroundings.Twin J a a') :
    (emitAll line sinks a).1.1 = (emitAll line sinks a').1.1 ∧
      Surroundings.Twin J (emitAll line sinks a).1.2 (emitAll line sinks a').1.2 ∧
      (emitAll line sinks a).2 = (emitAll line sinks a').2 ∧
      filePaths (emitAll line sinks a).2 ⊆ written := by
  induction sinks generalizing a a' with
  | nil => exact ⟨rfl, ha, rfl, hs⟩
  | cons sink rest ih =>
    have hboth := hs
    rw [filePaths_cons, List.append_subset] at hboth
    obtain ⟨hresult, hafter⟩ := respects_sink hJ line hboth.1 a a' ha
    cases hrun : sink.emit line a with
    | mk result a₁ =>
      cases hrun' : sink.emit line a' with
      | mk result' a₁' =>
        rw [hrun, hrun'] at hresult hafter
        cases hresult
        cases result with
        | error crash =>
          rw [emitAll_error hrun, emitAll_error hrun']
          exact ⟨rfl, hafter, rfl, hs⟩
        | ok sink' =>
          obtain ⟨hresult, hafter, hsinks, hpaths⟩ := ih hboth.2 hafter
          rw [emitAll_ok hrun, emitAll_ok hrun']
          refine ⟨hresult, hafter, congrArg (sink' :: ·) hsinks, ?_⟩
          rw [filePaths_cons, List.append_subset, filePaths_emit hrun]
          exact ⟨hboth.1, hpaths⟩

/-- Worlds with the same files, whose classifiers know nothing that the files do not hold. -/
structure World.Twin (J : Files → Prop) (w w' : World Cache) : Prop where
  around : Surroundings.Twin J w.around w'.around
  memory : Coherent J w.memory
  memory' : Coherent J w'.memory

structure Stage.Twin (J : Files → Prop) (written : List String) (st st' : Stage Cache) : Prop where
  world : World.Twin J st.world st'.world
  sinks : st.sinks = st'.sinks
  paths : filePaths st.sinks ⊆ written

theorem respects_surroundings {α : Type} {t : Task Surroundings α}
    (ht : t.Respects (Surroundings.Twin J)) :
    (World.surroundings t : Task (World Cache) α).Respects (World.Twin J) := by
  intro w w' hw
  obtain ⟨hresult, hafter⟩ := ht w.around w'.around hw.around
  exact ⟨hresult, hafter, hw.memory, hw.memory'⟩

theorem respects_stage {α : Type} {t : Task (World Cache) α} (ht : t.Respects (World.Twin J)) :
    (Stage.zoom t).Respects (Stage.Twin J written) := by
  intro st st' hst
  obtain ⟨hresult, hafter⟩ := ht st.world st'.world hst.world
  exact ⟨hresult, hafter, hst.sinks, hst.paths⟩

/-- A question about a text: the model is loaded, and its answer taken. -/
theorem ask_run (model text : String) (w : World Cache) :
    World.ask classifyByModel model text w =
      (answerWith (w.memory.load w.around.files model).1 text >>= plainAnswer,
        { w with memory := (w.memory.load w.around.files model).2 }) := by
  unfold World.ask classifyByModel
  rw [classify_result]

/-- What the classifiers know makes no difference to their answers. -/
theorem respects_ask (hJ : SameModels J) (model text : String) :
    (World.ask classifyByModel model text).Respects (World.Twin J) := by
  intro w w' hw
  have hfiles : w.around.files = w'.around.files := hw.around.1
  have hkept : J w'.around.files := hfiles ▸ hw.around.2
  have hmemory := hw.memory.load hJ hw.around.2 model
  have hmemory' := hw.memory'.load hJ hkept model
  rw [ask_run, ask_run, hw.memory.load_result hw.around.2, hw.memory'.load_result hkept, hfiles]
  exact ⟨rfl, hw.around, hfiles ▸ hmemory, hmemory'⟩

variable {c : Config}

theorem respects_trace (hJ : Undisturbed J written) (hc : c.logs ⊆ written)
    (heading content : String) :
    (c.trace heading content : Task (World Cache) Unit).Respects (World.Twin J) := by
  unfold Config.trace
  split
  · rename_i hlog
    exact respects_surroundings (respects_append hJ (hc (by simp [Config.logs, hlog])) _)
  · exact (Task.Respects.chains _ fun _ => trivial).pure ()

theorem respects_generate (hJ : Undisturbed J written) (hc : c.logs ⊆ written)
    (instruction : String) : (generate c classifyByModel instruction).Respects (World.Twin J) := by
  refine chains_expandWith (Task.Respects.chains _ fun _ => trivial) ?_ (respects_trace hJ hc) ?_
  · rintro f ⟨⟩ text
    exact respects_ask hJ.models _ text
  · exact fun _ _ _ _ _ hw => ⟨rfl, hw⟩

theorem Stage.emit_run {κ : Type} (line : String) (st : Stage κ) :
    Stage.emit line st = ((emitAll line st.sinks st.world.around).1.1,
      ⟨{ st.world with around := (emitAll line st.sinks st.world.around).1.2 },
        (emitAll line st.sinks st.world.around).2⟩) := rfl

theorem host_respects (hJ : Undisturbed J written) (hc : c.logs ⊆ written) :
    (host c classifyByModel).Respects (Stage.Twin J written) where
  emit := by
    intro line st st' hst
    obtain ⟨hresult, hafter, hsinks, hpaths⟩ := emitAll_twin hJ line hst.paths hst.world.around
    change (Stage.emit line st).1 = (Stage.emit line st').1 ∧
      Stage.Twin J written (Stage.emit line st).2 (Stage.emit line st').2
    rw [Stage.emit_run, Stage.emit_run, ← hst.sinks]
    exact ⟨hresult, ⟨hafter, hst.world.memory, hst.world.memory'⟩, hsinks, hpaths⟩
  classify := by
    rintro f ⟨⟩ model text
    exact respects_stage (respects_ask hJ.models model text)
  expand := fun instruction => respects_stage (respects_generate hJ hc instruction)

def starting {κ : Type} (c : Config) (sinks : List Sink) (w : World κ) : Session (Stage κ) :=
  ⟨{}, ⟨w, (interpreter c (.buffer [] :: sinks)).sinks⟩⟩

def reported {κ : Type} : Except Crash Phase × Session (Stage κ) → Except Crash (Report × List Sink)
  | (.error crash, _) => .error crash
  | (.ok phase, s) =>
    .ok (⟨phase, (s.world.sinks.head?.map Sink.lines).getD [], s.machine.bindings,
      s.machine.expansions⟩, s.world.sinks.tail)

def runOn {κ : Type} (c : Config) (classify : Classify κ) (source : List Char) :
    Exec (Stage κ) Phase :=
  let modern := modernize (preprocess source)
  runSource (host c classify) modern.1 (modern.2.map Int.ofNat)

theorem run_eq {κ : Type} (c : Config) (classify : Classify κ) (sinks : List Sink)
    (source : List Char) (w : World κ) :
    run c classify sinks source w = (reported (runOn c classify source (starting c sinks w)),
      (runOn c classify source (starting c sinks w)).2.world.world) := by
  have hinner : (interpreter c (.buffer [] :: sinks)).run c classify source w =
      (((runOn c classify source (starting c sinks w)).1,
        ⟨(runOn c classify source (starting c sinks w)).2.machine,
          (runOn c classify source (starting c sinks w)).2.world.sinks⟩),
        (runOn c classify source (starting c sinks w)).2.world.world) := rfl
  unfold run
  rw [hinner]
  generalize runOn c classify source (starting c sinks w) = ended
  obtain ⟨result, s⟩ := ended
  cases result with
  | error crash => rfl
  | ok phase => rfl

theorem filePaths_starting (hc : c.logs ⊆ written) {sinks : List Sink}
    (hs : filePaths sinks ⊆ written) (w : World Cache) :
    filePaths (starting c sinks w).world.sinks ⊆ written := by
  have hlog : filePaths (if c.outputLog then [.file c.outputLogPath defaultMark] else []) ⊆
      written := by
    split
    · rename_i hlog
      refine List.cons_subset.mpr ⟨hc ?_, List.nil_subset _⟩
      simp [Config.logs, hlog]
    · exact List.nil_subset _
  have happend (xs ys : List Sink) : filePaths (xs ++ ys) = filePaths xs ++ filePaths ys :=
    List.filterMap_append
  change filePaths (.buffer [] :: sinks ++ _) ⊆ written
  rw [happend, List.append_subset]
  exact ⟨hs, hlog⟩

theorem reported_twin {x x' : Except Crash Phase × Session (Stage Cache)} (hresult : x.1 = x'.1)
    (hafter : x.2.Twin (Stage.Twin J written) x'.2) : reported x = reported x' := by
  obtain ⟨result, s⟩ := x
  obtain ⟨result', s'⟩ := x'
  have hmachine : s.machine = s'.machine := hafter.machine
  have hsinks : s.world.sinks = s'.world.sinks := hafter.world.sinks
  cases hresult
  cases result with
  | error crash => rfl
  | ok phase => simp only [reported, hmachine, hsinks]

/-- A script gives the same in twin worlds, and leaves twin worlds. -/
theorem run_respects (hJ : Undisturbed J written) (hc : c.logs ⊆ written) {sinks : List Sink}
    (hs : filePaths sinks ⊆ written) (source : List Char) :
    (run c classifyByModel sinks source).Respects (World.Twin J) := by
  intro w w' hw
  have hstart : (starting c sinks w).Twin (Stage.Twin J written) (starting c sinks w') :=
    ⟨rfl, hw, rfl, filePaths_starting hc hs w⟩
  have hrespects : (runOn c classifyByModel source).Respects
      (Session.Twin (Stage.Twin J written)) := (host_respects hJ hc).run _ _
  obtain ⟨hresult, hafter⟩ := hrespects _ _ hstart
  rw [run_eq, run_eq]
  exact ⟨reported_twin hresult hafter, hafter.world.world⟩

/-- Runs scripts one after the other, each with sinks of its own. Before each of them, the memory
of the classifier becomes `renew` of what it was. -/
def runAll (c : Config) (renew : Cache → Cache) :
    List (List Sink × List Char) → World Cache →
      List (Except Crash (Report × List Sink)) × World Cache
  | [], w => ([], w)
  | (sinks, source) :: rest, w =>
    let (result, w) := run c classifyByModel sinks source { w with memory := renew w.memory }
    let (results, w) := runAll c renew rest w
    (result :: results, w)

theorem runAll_cons (c : Config) (renew : Cache → Cache) (sinks : List Sink) (source : List Char)
    (rest : List (List Sink × List Char)) (w : World Cache) :
    let ended := run c classifyByModel sinks source { w with memory := renew w.memory }
    runAll c renew ((sinks, source) :: rest) w =
      (ended.1 :: (runAll c renew rest ended.2).1, (runAll c renew rest ended.2).2) := rfl

theorem runAll_twin (hJ : Undisturbed J written) (hc : c.logs ⊆ written)
    {renew renew' : Cache → Cache} (hr : ∀ cache, Coherent J cache → Coherent J (renew cache))
    (hr' : ∀ cache, Coherent J cache → Coherent J (renew' cache))
    {jobs : List (List Sink × List Char)} (hs : ∀ job ∈ jobs, filePaths job.1 ⊆ written)
    {w w' : World Cache} (hw : World.Twin J w w') :
    (runAll c renew jobs w).1 = (runAll c renew' jobs w').1 ∧
      World.Twin J (runAll c renew jobs w).2 (runAll c renew' jobs w').2 := by
  induction jobs generalizing w w' with
  | nil => exact ⟨rfl, hw⟩
  | cons job rest ih =>
    obtain ⟨sinks, source⟩ := job
    obtain ⟨hjob, hrest⟩ := List.forall_mem_cons.mp hs
    have hstart : World.Twin J { w with memory := renew w.memory }
        { w' with memory := renew' w'.memory } := ⟨hw.around, hr _ hw.memory, hr' _ hw.memory'⟩
    obtain ⟨hresult, hafter⟩ := run_respects hJ hc hjob source _ _ hstart
    obtain ⟨hresults, hend⟩ := ih hrest hafter
    rw [runAll_cons, runAll_cons]
    exact ⟨List.cons_eq_cons.mpr ⟨hresult, hresults⟩, hend⟩

theorem undisturbed_alone (files : Files) : Undisturbed (· = files) [] where
  models := by
    rintro _ _ rfl rfl path model h
    exact h
  append := nofun

/-- Where nothing is written to, each script gives what it gives on a new engine at the start. -/
theorem runAll_quiet (hc : c.logs = []) {jobs : List (List Sink × List Char)}
    (hs : ∀ job ∈ jobs, filePaths job.1 = []) (around : Surroundings) {w : World Cache}
    (hw : World.Twin (· = around.files) w ⟨around, []⟩) :
    (runAll c id jobs w).1 =
        jobs.map (fun job => (run c classifyByModel job.1 job.2 ⟨around, []⟩).1) ∧
      (runAll c id jobs w).2.around.files = around.files := by
  induction jobs generalizing w with
  | nil => exact ⟨rfl, hw.around.1⟩
  | cons job rest ih =>
    obtain ⟨sinks, source⟩ := job
    obtain ⟨hjob, hrest⟩ := List.forall_mem_cons.mp hs
    obtain ⟨hresult, hafter⟩ := run_respects (undisturbed_alone around.files)
      (List.subset_nil.mpr hc) (List.subset_nil.mpr hjob) source w _ hw
    have hagain : World.Twin (· = around.files) _ ⟨around, []⟩ :=
      ⟨⟨hafter.around.2, hafter.around.2⟩, hafter.memory, coherent_nil⟩
    obtain ⟨hresults, hfiles⟩ := ih hrest hagain
    rw [runAll_cons]
    exact ⟨List.cons_eq_cons.mpr ⟨hresult, hresults⟩, hfiles⟩

/-- What a classifier remembers cannot be seen while the files hold the same models. After any
requests, among any changes of the files, a path leads to the model that it led to when it was
first loaded with success, and else to what its file holds now; a load that fails changes nothing,
and other paths are of no account. So while the files stay as they are, every request is answered
as by a new classifier, and scripts that are run on one engine give what they give on new ones. -/
theorem memory_transparent (history : List (Files × Request)) :
    let cache := after history
    (∀ files path,
      (cache.load files path).1 =
        recalled (firstModel? (Path.normalize path) history) files path ∧
      (∀ text, cache.classify files path text =
        (answerWith (cache.load files path).1 text, (cache.load files path).2)) ∧
      (∀ fault, (cache.load files path).1 = .error fault →
        (cache.load files path).2 = cache ∧
          (path ≠ "" → ∀ files', (cache.load files' path).1 = readModel files' path)) ∧
      ((after (history.filter fun event =>
        Path.normalize event.2.path == Path.normalize path)).load files path).1 =
          (cache.load files path).1) ∧
    (∀ files, (∀ event ∈ history, event.1 = files) → ∀ path text,
      (cache.load files path).1 = (Cache.load [] files path).1 ∧
      (cache.classify files path text).1 = (Cache.classify [] files path text).1) ∧
    (∀ (c : Config) (J : Files → Prop) (jobs : List (List Sink × List Char))
      (around : Surroundings), Undisturbed J (c.logs ++ jobs.flatMap fun job => filePaths job.1) →
      J around.files →
      (runAll c id jobs ⟨around, []⟩).1 = (runAll c (fun _ => []) jobs ⟨around, []⟩).1) ∧
    ∀ (c : Config) (jobs : List (List Sink × List Char)) (around : Surroundings),
      c.logs = [] → (∀ job ∈ jobs, filePaths job.1 = []) →
      (runAll c id jobs ⟨around, []⟩).1 =
          jobs.map (fun job => (run c classifyByModel job.1 job.2 ⟨around, []⟩).1) ∧
        (runAll c id jobs ⟨around, []⟩).2.around.files = around.files := by
  intro cache
  refine ⟨fun files path => ⟨?_, fun text => classify_result cache files path text,
    fun fault he => load_of_error he, ?_⟩, fun files hall path text => ?_,
    fun c J jobs around hJ hkept => ?_, fun c jobs around hc hs => ?_⟩
  · rw [load_result, lookup_after]
  · rw [load_result, load_result, lookup_after, lookup_after, firstModel?_filter]
  · have hc : Coherent (· = files) cache := coherent_after (undisturbed_alone files).models hall
    exact ⟨hc.load_result rfl path, hc.classify_result rfl path text⟩
  · have hpaths : ∀ job ∈ jobs,
        filePaths job.1 ⊆ c.logs ++ jobs.flatMap fun job => filePaths job.1 := by
      intro job hjob path hpath
      exact List.mem_append_right _ (List.mem_flatMap.mpr ⟨job, hjob, hpath⟩)
    exact (runAll_twin hJ (List.subset_append_left _ _) (fun _ h => h) (fun _ _ => coherent_nil)
      hpaths ⟨⟨rfl, hkept⟩, coherent_nil, coherent_nil⟩).1
  · exact runAll_quiet hc hs around ⟨⟨rfl, rfl⟩, coherent_nil, coherent_nil⟩

def holding (label : String) : Files :=
  ⟨[(["m.json"], .file (Files.bytesOf ("\x7b\"labels\": [\"" ++ label ++ "\"]\x7d")))]⟩

/-- A model that has been rewritten since it was loaded, and two scripts on one engine. -/
theorem memory_transparent_rewritten :
    let history := [(holding "a", Request.load "m.json")]
    let jobs :=
      [([], "AI: \"m.json\"\nset x from AI: hi".toList), ([.console ""], "neuro x".toList)]
    (firstModel? "m.json" history).map Model.labels = some [CodePoints.ofString "a"] ∧
      ((after history).load (holding "b") "./m.json").1 =
        recalled (firstModel? "m.json" history) (holding "b") "./m.json" ∧
      (runAll {} id jobs ⟨{ files := holding "b" }, []⟩).1 =
        jobs.map (fun job =>
          (run {} classifyByModel job.1 job.2 ⟨{ files := holding "b" }, []⟩).1) := by
  intro history jobs
  refine ⟨by decide +kernel, ((memory_transparent history).1 (holding "b") "./m.json").1, ?_⟩
  exact ((memory_transparent history).2.2.2 {} jobs _ rfl (by decide)).1

end Scribe.Run
