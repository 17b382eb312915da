import ForeignHandles.Proofs.Host.Completion
import ForeignHandles.Proofs.Host.Ownership

/-!
  Disposing of a module deletes exactly what it owns.

  Disposing leaves a job for each global of the module and one that retires it.  The jobs are read
  off the lists of the module once; while they are done, the lists shrink, values elsewhere lose
  their aliasees, functions leave jobs for their arguments, of which some may be gone already, and
  consumers run in between.

  What will go is known from the start all the same: the `contents` of the module.  In the middle of
  it, what has gone so far and what goes with the values that are left to delete are the contents,
  one after the other (`Midst.rest`), and the store is the one that there was, with what has gone so
  far released (`Midst.store`).  So when the module is retired all of its contents have gone, in
  their order, and nothing else.

  Callers may have begun to dispose of the module inside something else that is not over.  Then
  disposing is over when the agenda is what it was before.
-/
namespace ForeignHandles

namespace Host

/-! ## What every run keeps

Edits are the only actions that touch arguments, apart from releases, which take some away. -/

/-- The values that left the context, in order of time. -/
def releases (records : List Record) : List (Ref .value) := records.filterMap Record.released?

/-- The deletion of one value after another, each told to everyone. -/
def obituaries (roster : List Listener) (gone : List (Ref .value)) : List (Listener × Notice) :=
  gone.flatMap (fun v => toAll roster (.deleted v))

/-- The record is read piece by piece. -/
theorem releases_append (first second : List Record) :
    releases (first ++ second) = releases first ++ releases second := List.filterMap_append

/-- The value that goes last is told of last. -/
theorem obituaries_concat (roster : List Listener) (gone : List (Ref .value)) (v : Ref .value) :
    obituaries roster (gone ++ [v]) = obituaries roster gone ++ toAll roster (.deleted v) := by
  rw [obituaries, List.flatMap_append, List.flatMap_singleton, obituaries]

/-- The values that are left to delete, the one that is announced included. -/
def Phase.doomed : Phase → List (Ref .value)
  | .between later => later
  | .telling _ (.deleted v) _ later => v :: later
  | .telling _ (.replaced _ _) _ later => later

/-- Who listens does not depend on what a cache has cached. -/
theorem audience_putCache (h : Host) (k : Ref .cache) (cache : Cache (Ref .value)) :
    (h.putCache (some k) cache).audience = h.audience := by
  have hlistens : (h.putCache (some k) cache).listensTo soleContext = h.listensTo soleContext := by
    funext l
    cases l with
    | observer o => rfl
    | cache j =>
      simp only [listensTo, putCache, Arena.get?_modify]
      split
      · cases h.caches.get? j <;> rfl
      · rfl
  rw [audience, liveListeners, hlistens]
  rfl

/-! ## In the middle of it

`Midst` is an invariant of the phase, as it is kept by every step that is taken inside. It
compares the host now (`g`) with the host on which disposing began (`h`); there is one lemma for
each kind of step. -/

/-- In the middle of disposing of a module, which began on `h` and takes `gone` with it. -/
structure Midst (h : Host) (m : Ref .module) (gone : List (Ref .value)) (g : Host)
    (r : List Record) (φ : Phase) : Prop where
  /-- The jobs of the phase are in front of the retirement, and what was there before comes after
  it. -/
  agenda : g.agenda = φ.jobs ++ .retire m :: h.agenda
  /-- Nothing has happened to the store but releases. -/
  store : g.store = h.store.releaseAll (releases r)
  /-- What has gone and what is yet to go are the contents, in order. -/
  rest : releases r ++ g.store.doomed φ.doomed = gone
  /-- All have been told of what has gone, and of the next value as far as the phase says. -/
  told : deliveries r ++ φ.outstanding = obituaries h.audience (releases r) ++ φ.imminent h.audience
  /-- Nobody is told of anything but deletions, and of no value that is gone. -/
  there : ∀ {current notice waiting later}, φ = .telling current notice waiting later →
    ∃ v, notice = .deleted v ∧ g.store.values.contains v = true
  /-- Nobody has come or gone among those who listen. -/
  audience : ({ g with agenda := h.agenda } : Host).audience = h.audience

/-- Disposing of a module is over. -/
structure Over (h : Host) (m : Ref .module) (gone : List (Ref .value)) (g : Host)
    (r : List Record) : Prop where
  agenda : g.agenda = h.agenda
  store : g.store = (h.store.releaseAll gone).retireModule m
  released : releases r = gone
  told : deliveries r = obituaries h.audience gone

variable {h g g' : Host} {m : Ref .module} {gone : List (Ref .value)} {r : List Record} {φ : Phase}

namespace Midst

/-- The job in front is one of the phase. -/
theorem front (hm : Midst h m gone g r φ) {job : Job} {agenda : List Job}
    (hfront : g.agenda = job :: agenda) (hjob : job.isRetire = false) :
    ∃ jobs, φ.jobs = job :: jobs ∧ agenda = jobs ++ .retire m :: h.agenda := by
  have hagenda := hm.agenda.symm.trans hfront
  cases hjobs : φ.jobs with
  | nil =>
    rw [hjobs] at hagenda
    obtain ⟨rfl, -⟩ := List.cons.inj hagenda
    cases hjob
  | cons first jobs =>
    rw [hjobs] at hagenda
    obtain ⟨rfl, rfl⟩ := List.cons.inj hagenda
    exact ⟨jobs, rfl, rfl⟩

/-- Consumers use their caches, or return to one that has more to tell them. -/
theorem stay (hm : Midst h m gone g r φ) (hagenda : g'.agenda = g.agenda)
    (hstore : g'.store = g.store)
    (haudience : ({ g' with agenda := h.agenda } : Host).audience =
      ({ g with agenda := h.agenda } : Host).audience) : Midst h m gone g' (r ++ []) φ where
  agenda := hagenda.trans hm.agenda
  store := by
    rw [List.append_nil, hstore]
    exact hm.store
  rest := by
    rw [List.append_nil, hstore]
    exact hm.rest
  told := by
    rw [List.append_nil]
    exact hm.told
  there heq := hstore ▸ hm.there heq
  audience := haudience.trans hm.audience

/-- A consumer uses its cache, or a cache goes on with a callback. -/
theorem put (hm : Midst h m gone g r φ) (k : Ref .cache) (cache : Cache (Ref .value)) :
    Midst h m gone (g.putCache (some k) cache) (r ++ []) φ :=
  hm.stay rfl rfl (audience_putCache { g with agenda := h.agenda } k cache)

variable {v : Ref .value} {x : Value} {later : List (Ref .value)} {agenda : List Job}

/-- The first of the values is there: everyone is about to be told. -/
theorem delete (hm : Midst h m gone g r (.between (v :: later)))
    (hagenda : agenda = (Phase.between later).jobs ++ .retire m :: h.agenda)
    (hv : g.store.values.contains v = true) :
    Midst h m gone
      { g with agenda := g.announce soleContext (.deleted v) ++ .release soleContext v :: agenda }
      (r ++ []) (.telling none (.deleted v) h.audience later) := by
  have haudience : g.audience = h.audience := by
    -- there is no listener among the jobs that have come in front
    have hsplit : g.agenda = ((Phase.between (v :: later)).jobs ++ [.retire m]) ++ h.agenda := by
      rw [hm.agenda, List.append_assoc, List.singleton_append]
    refine Eq.trans (liveListeners_of_agenda hsplit ?_ soleContext).symm hm.audience
    intro job hjob
    rcases List.mem_append.1 hjob with hjob | hjob
    · obtain ⟨w, -, rfl⟩ := List.mem_map.1 hjob
      rfl
    · rw [List.mem_singleton.1 hjob]
      rfl
  refine ⟨?_, ?_, ?_, ?_, fun heq => ?_, hm.audience⟩
  -- those who listened at the beginning are told now, for nobody has come or gone
  · simp [announce_eq, haudience, hagenda, Phase.jobs, closing]
  · rw [List.append_nil]
    exact hm.store
  · rw [List.append_nil]
    exact hm.rest
  · have htold := hm.told
    simp only [Phase.outstanding, Phase.imminent, List.append_nil] at htold
    rw [List.append_nil, htold]
    rfl
  · cases heq
    exact ⟨v, rfl, hv⟩

/-- The first of the values is gone already. -/
theorem skip (hm : Midst h m gone g r (.between (v :: later)))
    (hagenda : agenda = (Phase.between later).jobs ++ .retire m :: h.agenda)
    (hv : g.store.values.get? v = none) :
    Midst h m gone { g with agenda } (r ++ []) (.between later) where
  agenda := hagenda
  store := by
    rw [List.append_nil]
    exact hm.store
  rest := by
    have hrest := hm.rest
    rw [Phase.doomed, Store.doomed_cons_of_none hv] at hrest
    rw [List.append_nil]
    exact hrest
  told := by
    rw [List.append_nil]
    exact hm.told
  there heq := by cases heq
  audience := hm.audience

variable {l : Listener} {current : Option Listener} {notice : Notice} {waiting : List Listener}

/-- The next listener is told. -/
theorem tell (hm : Midst h m gone g r (.telling none notice (l :: waiting) later))
    (hagenda : g'.agenda =
      (Phase.telling current notice waiting later).jobs ++ .retire m :: h.agenda)
    (hstore : g'.store = g.store)
    (haudience : ({ g' with agenda := h.agenda } : Host).audience =
      ({ g with agenda := h.agenda } : Host).audience) :
    Midst h m gone g' (r ++ [.told l notice g.store]) (.telling current notice waiting later) := by
  obtain ⟨v, rfl, hv⟩ := hm.there rfl
  have hreleases : releases (r ++ [.told l (.deleted v) g.store]) = releases r := by
    rw [releases_append]
    exact List.append_nil _
  refine ⟨hagenda, ?_, ?_, ?_, fun heq => ?_, haudience.trans hm.audience⟩
  · rw [hreleases, hstore]
    exact hm.store
  · rw [hreleases, hstore]
    exact hm.rest
  · -- one delivery more on record is one less outstanding
    have htold := hm.told
    rw [hreleases, deliveries_append, List.append_assoc]
    exact htold
  · cases heq
    exact ⟨v, rfl, hstore ▸ hv⟩

/-- The value that was announced goes, and its arguments are the next ones to go. -/
theorem release (hm : Midst h m gone g r (.telling none (.deleted v) [] later))
    (ha : h.store.ListsArguments) (hnodup : gone.Nodup)
    (hagenda : agenda = (Phase.between later).jobs ++ .retire m :: h.agenda)
    (hv : g.store.values.get? v = some x) :
    Midst h m gone
      { g with
        store := g.store.release v
        agenda := x.arguments.map (.delete soleContext) ++ agenda }
      (r ++ [.released v]) (.between (x.arguments ++ later)) := by
  have hreleases : releases (r ++ [.released v]) = releases r ++ [v] := releases_append r _
  refine ⟨?_, ?_, ?_, ?_, fun heq => ?_, hm.audience⟩
  · simp [hagenda, Phase.jobs]
  -- one more value has been released
  · rw [hreleases, Store.releaseAll_concat, ← hm.store]
  · have hrest : releases r ++ g.store.doomed (v :: later) = gone := hm.rest
    have hlists : g.store.ListsArguments := hm.store ▸ ha.releaseAll (releases r)
    -- a value that is to go is not among those that go with what comes after it
    have honce : (g.store.doomed (v :: later)).Nodup :=
      hnodup.sublist (hrest ▸ List.sublist_append_right ..)
    rw [hreleases, ← hrest, Store.doomed_cons hlists hv honce, List.append_assoc]
    rfl
  · have htold : deliveries r ++ [] =
        obituaries h.audience (releases r) ++ toAll h.audience (.deleted v) := hm.told
    -- nobody is told of anything by a release
    have hsilent : deliveries (r ++ [.released v]) = deliveries r := by
      rw [deliveries_append]
      exact List.append_nil _
    rw [hreleases, obituaries_concat, ← htold, hsilent]
    exact (List.append_nil _).symm
  · cases heq

/-- When nothing is left to delete, the module is retired and that is the end. -/
theorem retire (hm : Midst h m gone g r (.between [])) :
    Over h m gone { g with store := g.store.retireModule m, agenda := h.agenda } (r ++ []) := by
  have hrest : releases r = gone := by
    have hrest : releases r ++ [] = gone := hm.rest
    rwa [List.append_nil] at hrest
  refine ⟨rfl, ?_, ?_, ?_⟩
  · rw [← hrest, ← hm.store]
  · rw [List.append_nil]
    exact hrest
  · have htold := hm.told
    simp only [Phase.outstanding, Phase.imminent, List.append_nil] at htold
    rw [List.append_nil, htold, hrest]

end Midst

/-- From `h` to `g` the module `m` has been disposed of, with `r` on record: it has gone with its
contents, each told to everyone in turn, and nothing is left to do or to be done again. -/
structure Disposed (h : Host) (m : Ref .module) (x : Module) (g : Host) (r : List Record) :
    Prop where
  agenda : g.agenda = h.agenda
  store : h.store.Sheds m x g.store
  /-- Disposing of it again has no effect. -/
  again : g.act (.disposeModule (some m)) = g
  /-- Nothing goes twice. -/
  once : (h.store.contents x).Nodup
  released : releases r = h.store.contents x
  told : deliveries r = obituaries h.audience (h.store.contents x)
  /-- The arguments of a function come by their index. -/
  inOrder : ∀ f ∈ x.functions, (h.store.liveArguments f).Pairwise
    (fun a b => h.store.argumentIndex (some a) < h.store.argumentIndex (some b))

/-- What has gone at the end is all of the contents, so the module has been disposed of. -/
theorem Over.disposed {x : Module} (hover : Over h m (h.store.contents x) g r)
    (hlists : h.store.ListsGlobals) (ha : h.store.ListsArguments)
    (hm : h.store.modules.get? m = some x) : Disposed h m x g r := by
  have hsheds : h.store.Sheds m x g.store := by
    rw [hover.store]
    exact Store.sheds_contents hlists ha hm
  refine ⟨hover.agenda, hsheds, ?_, Store.nodup_contents hlists ha hm, hover.released, hover.told,
    fun f hf => ?_⟩
  -- disposing of it once more finds no module
  · have hgone : g.store.modules.get? m = none := by rw [hsheds.modules, if_pos rfl]
    simp [act, disposeModule, Store.module?, hgone]
  · obtain ⟨y, hy, -⟩ := hlists.listed (k := .function) hm hf
    rw [Store.liveArguments_of_get? hy]
    exact ha.increasing hy

end Host

end ForeignHandles
