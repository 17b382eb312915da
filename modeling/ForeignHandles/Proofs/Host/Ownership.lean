import ForeignHandles.Proofs.Host.Step
import ForeignHandles.Proofs.Store.Ownership

/-!
  Modules own their globals, over every run of a host.

  The lists of the modules and the parents of the values agree in every state that a run reaches.
  Most of that is about single operations (`ForeignHandles.Proofs.Store.Ownership`).  What is left is
  disposing of a module.  That is a list of jobs: delete the globals one by one, then retire the
  module.  While the jobs are done the lists that they were made from change, for a global forgets
  its module when it is unlinked or deleted by somebody else.  The invariant is one about the agenda:
  whatever is listed in a module now has a job that deletes or releases it in front of every job that
  retires the module (`Clears`).  So nothing is listed when the module goes.

  This needs that a module which is being disposed of gets no new globals (`SparesClosing`).
  Operations that are done one after another see to it by themselves, as the agenda is empty
  whenever one begins; only a consumer could do otherwise, while it is told of a deletion.
-/
namespace ForeignHandles

/-! ## Who goes first

`GoesFirst` reads an agenda from the front. It does not say that the module is retired at all: an
agenda without such a job satisfies it, and so does one in which the module waits behind anything
else. -/

/-- Whether a job deletes or releases a value. -/
def Job.ends (v : Ref .value) : Job → Prop
  | .delete _ w => w = v
  | .release _ w => w = v
  | _ => False

/-- On an agenda, a value is deleted or released before a module is retired. -/
def GoesFirst (v : Ref .value) (m : Ref .module) : List Job → Prop
  | [] => True
  | job :: jobs => job.ends v ∨ job ≠ .retire m ∧ GoesFirst v m jobs

section GoesFirst

variable {v : Ref .value} {m : Ref .module} {front jobs : List Job}

/-- Before a module that is not retired at all, anything goes first. -/
theorem goesFirst_of_not_mem (h : .retire m ∉ jobs) : GoesFirst v m jobs := by
  induction jobs with
  | nil => trivial
  | cons job jobs ih =>
    exact .inr ⟨(List.ne_of_not_mem_cons h).symm, ih (List.not_mem_of_not_mem_cons h)⟩

/-- More jobs in front do not matter unless one retires the module, -/
theorem GoesFirst.append (hfront : .retire m ∉ front) (h : GoesFirst v m jobs) :
    GoesFirst v m (front ++ jobs) := by
  induction front with
  | nil => exact h
  | cons job front ih =>
    exact .inr ⟨(List.ne_of_not_mem_cons hfront).symm, ih (List.not_mem_of_not_mem_cons hfront)⟩

/-- and if one of them ends the value, it goes first whatever is behind. -/
theorem goesFirst_of_mem {job : Job} (hfront : .retire m ∉ front) (hjob : job ∈ front)
    (hends : job.ends v) : GoesFirst v m (front ++ jobs) := by
  induction front with
  | nil => cases hjob
  | cons job' front ih =>
    rcases List.mem_cons.1 hjob with rfl | hjob
    · exact .inl hends
    · exact .inr ⟨(List.ne_of_not_mem_cons hfront).symm,
        ih (List.not_mem_of_not_mem_cons hfront) hjob⟩

/-- A job that is done and was not the one leaves the order as it is. -/
theorem GoesFirst.tail {job : Job} (h : GoesFirst v m (job :: jobs)) (hends : ¬ job.ends v) :
    GoesFirst v m jobs := by
  rcases h with h | ⟨-, h⟩
  · exact absurd h hends
  · exact h

end GoesFirst

/-- To delete values is not to retire a module, -/
theorem retire_not_mem_deletes (m : Ref .module) (c : Ref .context) (vs : List (Ref .value)) :
    .retire m ∉ vs.map (Job.delete c) := by
  simp

namespace Host

variable {h : Host}

/-- and neither is to tell listeners. -/
theorem retire_not_mem_announce (m : Ref .module) (c : Ref .context) (notice : Notice) :
    .retire m ∉ h.announce c notice := by
  simp [announce]

/-! ## What every run keeps

The lists are right without any condition on what consumers do. -/

/-- A new host has no modules. -/
theorem lists_opened : opened.store.ListsGlobals where
  listed hm := by cases hm
  once _ hm := by cases hm

/-- What the modules list is right after every run, whatever consumers do. -/
theorem lists_run (actions : List Action) : (opened.run actions).store.ListsGlobals :=
  store_run (P := Store.ListsGlobals) (fun hchange hlists => hlists.change hchange)
    (fun _ _ hlists => hlists.rewire _ _) (fun _ hlists => hlists.release _)
    (fun _ hlists => hlists.retire _) sole_opened lists_opened actions

/-! ## What a run without additions to closing modules keeps

Parents need more. A global that is added to a module whose disposal is under way has no job that
deletes it, and would be left behind. -/

/-- No global is added to a module that is about to be retired. -/
def SparesClosing (h : Host) (a : Action) : Prop :=
  ∀ e m, a = .edit e → e.addsTo? = some m → .retire m ∉ h.agenda

/-- When nothing is left to do, no module is about to be retired. -/
theorem sparesClosing_of_idle (hidle : h.agenda = []) (a : Action) : SparesClosing h a := by
  intro e m _ _
  rw [hidle]
  exact List.not_mem_nil

/-- Operations that are done one after another add nothing to a module that is disposed of. -/
theorem sparesClosing_of_sequential {actions : List Action}
    (h' : Along (fun h a => h.agenda = [] ∨ ∀ e, a ≠ .edit e) h actions) :
    Along SparesClosing h actions := by
  refine h'.imp fun h a ha => ?_
  rcases ha with hidle | hinner
  · exact sparesClosing_of_idle hidle a
  · intro e m he _
    exact absurd he (hinner e)

/-- Whatever is listed in a module goes before the module does. -/
def Clears (h : Host) : Prop :=
  ∀ {m x k v}, h.store.modules.get? m = some x → v ∈ x.listOf k → GoesFirst v m h.agenda

/-- A module that is retired now lists nothing. -/
theorem Clears.listOf_eq_nil (hclear : h.Clears) {m : Ref .module} {agenda : List Job}
    (hfront : h.agenda = .retire m :: agenda) {x : Module} {k : ValueKind} {v : Ref .value}
    (hm : h.store.modules.get? m = some x) : v ∉ x.listOf k := by
  intro hv
  have hfirst := hclear hm hv
  rw [hfront] at hfirst
  rcases hfirst with hends | ⟨hne, -⟩
  · exact hends
  · exact hne rfl

/-- When the job in front is done, what is listed still has its job, unless that was the one. -/
theorem Clears.tail (hclear : h.Clears) {job : Job} {agenda : List Job}
    (hfront : h.agenda = job :: agenda) {m : Ref .module} {x : Module} {k : ValueKind}
    {v : Ref .value} (hm : h.store.modules.get? m = some x) (hv : v ∈ x.listOf k)
    (hends : ¬ job.ends v) : GoesFirst v m agenda := by
  have hfirst := hclear hm hv
  rw [hfront] at hfirst
  exact hfirst.tail hends

/-- **Every step keeps lists and parents in agreement**, given that modules are emptied before
they are retired, -/
theorem owns_of_step {h' : Host} {a : Action} {rs : List Record} (hstep : Step h a h' rs)
    (hown : h.store.Owns) (hclear : h.Clears) : h'.store.Owns := by
  cases hstep with
  | edit hchange husers => exact hown.change hchange
  | replace hne hold => exact hown.rewire _ _
  | release hfront hv => exact hown.release _
  | vanish hfront hv => exact hown.release _
  | retire hfront => exact hown.retire (hclear.listOf_eq_nil hfront)
  | tellCache hfront =>
    rw [store_notify]
    exact hown
  | _ => exact hown

/-- and every step keeps modules to be emptied first. An edit lists new globals in modules that
stay; a disposal puts a job for each of its globals in front of its own; and where a job is done,
what it was about is no longer listed. -/
theorem clears_of_step {h' : Host} {a : Action} {rs : List Record} (hok : SparesClosing h a)
    (hstep : Step h a h' rs) (hown : h.store.Owns) (hclear : h.Clears) : h'.Clears := by
  cases hstep with
  | edit hchange husers =>
    -- what is new on a list is on the list of a module that stays
    intro m x k v hm hv
    rcases hchange.listed_of hown.lists hm hv with hhome | ⟨y, hy, hmem⟩
    · exact goesFirst_of_not_mem (hok _ m rfl hhome)
    · exact hclear hy hmem
  | @delete a v agenda hfront hv =>
    intro m x k w hm hw
    refine GoesFirst.append (retire_not_mem_announce m _ _) ?_
    by_cases hwv : v = w
    · exact .inl hwv
    · refine .inr ⟨by simp, ?_⟩
      rcases hfront with ⟨-, rfl⟩ | ⟨-, hfront⟩
      · exact hclear hm hw
      · exact hclear.tail hfront hm hw hwv
  | replace hne hold =>
    intro m x k v hm hv
    exact (hclear hm hv).append (retire_not_mem_announce m _ _)
  | @dispose n z hn =>
    intro m x k v hm hv
    by_cases hmn : m = n
    · -- the module itself: its globals are all to be deleted
      subst hmn
      obtain rfl : z = x := by simpa [hn] using hm
      have howned : v ∈ z.owned := Module.mem_owned_iff.2 (Module.mem_linked_iff.2 ⟨k, hv⟩)
      exact goesFirst_of_mem (retire_not_mem_deletes m _ _) (List.mem_map_of_mem howned) rfl
    · refine GoesFirst.append (retire_not_mem_deletes m _ _) (.inr ⟨?_, hclear hm hv⟩)
      simpa using Ne.symm hmn
  | @tellObserver o notice agenda hfront =>
    intro m x k v hm hv
    exact .inr ⟨by simp, hclear.tail hfront hm hv id⟩
  | @tellCache j notice agenda hfront =>
    intro m x k v hm hv
    rw [store_notify] at hm
    have hrest : GoesFirst v m agenda := hclear.tail hfront hm hv id
    -- the agenda may now wait for the cache, and nothing else is new on it
    rcases agenda_notify { h with agenda } j notice with hsame | hpushed
    · rw [hsame]
      exact hrest
    · rw [hpushed]
      exact .inr ⟨by simp, hrest⟩
  | settled hfront hidle =>
    intro m x k v hm hv
    exact hclear.tail hfront hm hv id
  | @skip w agenda hfront hw =>
    intro m x k v hm hv
    refine hclear.tail hfront hm hv ?_
    -- a value that is gone is on no list
    rintro rfl
    exact hown.lists.not_mem_of_none hm hw hv
  | @release w y agenda hfront hw =>
    intro m x k v hm hv
    -- the job in front was about the value that goes, so what is still listed has another one
    obtain ⟨z, hz, hmem, hne⟩ := hown.lists.listed_withdraw (hown.lists.withdraws_release w) hm hv
    have hrest := hclear.tail hfront hz hmem (Ne.symm hne)
    exact hrest.append (retire_not_mem_deletes m _ _)
  | @vanish w agenda hfront hw =>
    intro m x k v hm hv
    obtain ⟨z, hz, hmem, hne⟩ := hown.lists.listed_withdraw (hown.lists.withdraws_release w) hm hv
    exact hclear.tail hfront hz hmem (Ne.symm hne)
  | @retire n agenda hfront =>
    intro m x k v hm hv
    simp only [Store.retireModule, Arena.get?_erase] at hm
    split at hm
    · cases hm
    · exact hclear.tail hfront hm hv id
  | heard handle hfront =>
    intro m x k v hm hv
    exact hclear.tail hfront hm hv id
  | _ => exact hclear

/-- The lists of the modules and the parents of the values agree after every run, and what is
listed will go before its module does. -/
theorem owns_run {actions : List Action} (hok : Along SparesClosing opened actions) :
    (opened.run actions).store.Owns ∧ (opened.run actions).Clears := by
  have hstart : opened.store.Owns ∧ opened.Clears := by
    refine ⟨.of_lists lists_opened fun {v y m} hv => ?_, fun {m x k v} hm => ?_⟩
    · cases hv
    · cases hm
  refine run_invariant (P := fun h _ => h.store.Owns ∧ h.Clears) ?_ (r := []) sole_opened hok hstart
  rintro h r a h' rs hs hok hstep ⟨hown, hclear⟩
  exact ⟨owns_of_step hstep hown hclear, clears_of_step hok hstep hown hclear⟩

/-! ## Values without a parent

Being without a parent is for good, so what is known of a variable when it is unlinked is known
ever after. -/

/-- A value that has no parent never gets one. -/
theorem parentless_run {h : Host} {v : Ref .value} {actions : List Action} (hs : h.Sole)
    (hv : h.store.Parentless v) : (h.run actions).store.Parentless v :=
  store_run (P := fun s => s.Parentless v) (fun hchange hv => hv.edit hchange)
    (fun _ _ hv => hv.rewire _ _) (fun _ hv => hv.release _) (fun _ hv => hv) hs hv actions

/-! ## Ownership

The theorem, and a disposal that is interrupted by additions to another module. -/

/-- **Modules own their globals**, in every state that a run reaches.

Whatever a module lists is there, of the sort of the list, with the module as its parent, and
listed once among all lists of all modules. A value with a parent is listed there. Values other
than globals have no parent and are on no list, and so it is with a variable from the time it is
unlinked.

What is asked of the run is that nobody puts anything into a module while it is being disposed of.
Callers who do one thing after the other cannot do so (`sparesClosing_of_sequential`); only
a listener could, who is told of what goes. -/
theorem modules_own_their_globals {actions : List Action}
    (hok : Along SparesClosing opened actions) :
    let s := (opened.run actions).store
    (∀ m x k v, s.modules.get? m = some x → v ∈ x.listOf k →
      s.listed.count v = 1 ∧
        ∃ y, s.values.get? v = some y ∧ y.kind = k ∧ y.parent = some m) ∧
    (∀ v y m, s.values.get? v = some y → y.parent = some m →
      ∃ x, s.modules.get? m = some x ∧ v ∈ x.listOf y.kind) ∧
    (∀ v y, s.values.get? v = some y → y.isGlobal = false → y.parent = none ∧ v ∉ s.listed) ∧
    (∀ first e second v, actions = first ++ .edit e :: second →
      (opened.run first).store.Unlinks v e →
      v ∉ s.listed ∧ ∀ y, s.values.get? v = some y → y.parent = none) := by
  intro s
  obtain ⟨hown, -⟩ := owns_run hok
  refine ⟨?_, ?_, ?_, ?_⟩
  · intro m x k v hm hv
    have hmem : v ∈ s.listed := Store.mem_listed_iff.2 ⟨m, x, k, hm, hv⟩
    exact ⟨by rw [hown.nodup_listed.count, if_pos hmem], hown.listed hm hv⟩
  · intro v y m hv hp
    exact hown.parent hv hp
  · intro v y hv hglobal
    have hparent : y.parent = none := by
      cases hp : y.parent with
      | none => rfl
      | some m =>
        -- the lists of the other sorts are empty
        obtain ⟨x, -, hmem⟩ := hown.parent hv hp
        rw [Value.isGlobal] at hglobal
        cases hk : y.kind <;> simp_all [Module.listOf, ValueKind.isGlobal]
    refine ⟨hparent, Store.Parentless.not_mem_listed ⟨?_, ?_⟩ hown⟩
    · exact s.values.bounded _ ((s.values.mem_items_iff v y).2 hv)
    · intro z hz
      obtain rfl : y = z := by simpa [s, hv] using hz
      exact hparent
  · intro first e second v hactions hunlinks
    obtain ⟨hfirst, -⟩ := along_append.1 (hactions ▸ hok)
    have hsole : (opened.run first).Sole := sole_run sole_opened first
    have hfree : ((opened.run first).act (.edit e)).store.Parentless v :=
      Store.parentless_of_unlinks (owns_run hfirst).1 hunlinks
    -- from the moment of the edit to the end of the run
    have hend : s.Parentless v := by
      have hrun : opened.run actions = ((opened.run first).act (.edit e)).run second := by
        rw [hactions, run_append, run_cons]
      simp only [s, hrun]
      exact parentless_run (sole_of_step (step_act hsole _) hsole) hfree
    exact ⟨hend.not_mem_listed hown, fun y hy => hend.2 hy⟩

/-- A module gets a variable and a function with an argument; the variable is unlinked, the module
begins to be disposed of, and before the first global goes another module is filled. -/
def amidDisposal : List Action :=
  [.edit (.createModule "m"), .edit (.addGlobalVariable ⟨0⟩ "v"), .edit (.addFunction ⟨0⟩ "f" 1),
    .edit (.unlinkVariable (some ⟨0⟩)), .disposeModule (some ⟨0⟩), .edit (.createModule "n"),
    .edit (.addGlobalVariable ⟨1⟩ "w")]

/-- The function is still listed once, and the variable is not listed any more. -/
theorem amidDisposal_owned :
    Along SparesClosing opened amidDisposal ∧
      (opened.run amidDisposal).store.listed.count ⟨2⟩ = 1 ∧
      ⟨0⟩ ∉ (opened.run amidDisposal).store.listed := by
  have hok : Along SparesClosing opened amidDisposal := by
    refine ⟨sparesClosing_of_idle rfl _, sparesClosing_of_idle rfl _, sparesClosing_of_idle rfl _,
      sparesClosing_of_idle rfl _, sparesClosing_of_idle rfl _, ?_, ?_, trivial⟩
    · intro e m he hm
      cases he
      cases hm
    · intro e m he hm hmem
      cases he
      cases hm
      have hagenda : Job.retire ⟨1⟩ ∈ [.delete soleContext ⟨2⟩, .retire ⟨0⟩] := hmem
      simp at hagenda
  obtain ⟨hlisted, -, -, hunlinked⟩ := modules_own_their_globals hok
  refine ⟨hok, (hlisted ⟨0⟩ _ .function ⟨2⟩ rfl ?_).1, ?_⟩
  · exact List.mem_cons_self
  · have hv : ∃ x, (opened.run (amidDisposal.take 3)).store.values.get? ⟨0⟩ = some x ∧
        x.kind = .globalVariable := ⟨_, rfl, rfl⟩
    exact (hunlinked (amidDisposal.take 3) _ (amidDisposal.drop 4) ⟨0⟩ rfl ⟨rfl, hv⟩).1

/-- An observer that adds a variable to a module whose last global goes leaves it with a parent that
is gone.  This is what `SparesClosing` rules out. -/
example :
    let h := opened.run
      [.edit (.createModule "m"), .edit (.addGlobalVariable ⟨0⟩ "v"), .addObserver,
        .disposeModule (some ⟨0⟩), .step, .step, .edit (.addGlobalVariable ⟨0⟩ "w"), .answer none,
        .step, .step]
    h.agenda = [] ∧ h.store.modules.get? ⟨0⟩ = none ∧
      (h.store.values.get? ⟨1⟩).map (·.parent) = some (some ⟨0⟩) := ⟨rfl, rfl, rfl⟩

end Host

end ForeignHandles
