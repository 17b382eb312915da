import ForeignHandles.Proofs.Host.Listeners
import ForeignHandles.Proofs.Host.Phase

/-!
  Every death and every replacement is announced exactly once.

  Read the record of a run from its beginning and keep a roster of the listeners that are alive.
  Whenever a value leaves the context or is replaced, everyone on the roster should have been told,
  in the order of the roster.  That is the `script`.  The theorem is that what listeners were told
  is the script, whenever nothing is left to do.

  In the middle of an operation the two are apart.  Some who are to be told have not been
  (`Phase.outstanding`); and of a value that is about to go they are told before it goes, so the
  script does not have that yet (`Phase.imminent`).  With these two put in, the equation holds in
  every state (`Account.balance`).

  All this is for listeners that leave the context and the other listeners alone while they are told
  (`Discreet`).
-/
namespace ForeignHandles

/-- What a listener may rely on while it is told: a value that is deleted is still there, and nobody
uses a value that is replaced any more. -/
def Notice.Holds (s : Store) : Notice → Prop
  | .deleted v => s.containsValue Host.soleContext v = true
  | .replaced old _ => ∀ u, s.target? u ≠ some (some old)

namespace Host

/-! ## The script

The script is computed from the record alone: who was registered and dropped, and what happened.
Deliveries are entries of the record too, and the script does not look at them. -/

/-- What a record says there is to be told. -/
def Record.notice? : Record → Option Notice
  | .released v => some (.deleted v)
  | .replaced old new => some (.replaced old new)
  | _ => none

/-- Whom a record says was told, and what. -/
def Record.told? : Record → Option (Listener × Notice)
  | .told l notice _ => some (l, notice)
  | _ => none

/-- The value that a record says left the context. -/
def Record.released? : Record → Option (Ref .value)
  | .released v => some v
  | _ => none

/-- The notices there were, in order of time. -/
def notices (records : List Record) : List Notice := records.filterMap Record.notice?

/-- Who was told what, in order of time. -/
def deliveries (records : List Record) : List (Listener × Notice) :=
  records.filterMap Record.told?

/-- What one listener was told, in order of time. -/
def heard (l : Listener) (told : List (Listener × Notice)) : List Notice :=
  (told.filter (fun p => p.1 = l)).map (·.2)

/-- Everyone on a roster, with a notice. -/
def toAll (roster : List Listener) (notice : Notice) : List (Listener × Notice) :=
  roster.map (·, notice)

/-- Who should be told what: everyone who is alive at the time, in order of registration. -/
def script : List Listener → List Record → List (Listener × Notice)
  | _, [] => []
  | roster, x :: records =>
    x.notice?.toList.flatMap (toAll roster) ++ script (x.enroll roster) records

/-- The script of a longer record goes on with the roster that the first part has led to. -/
theorem script_append (roster : List Listener) (first second : List Record) :
    script roster (first ++ second) =
      script roster first ++ script (alive roster first) second := by
  induction first generalizing roster with
  | nil => rfl
  | cons x first ih =>
    rw [List.cons_append, script, script, ih, List.append_assoc]
    rfl

/-- What one listener hears is heard in order. -/
theorem heard_append (l : Listener) (first second : List (Listener × Notice)) :
    heard l (first ++ second) = heard l first ++ heard l second := by
  simp [heard]

/-- Who is on the roster once hears a notice to all once. -/
theorem heard_toAll {l : Listener} {roster : List Listener} (hl : l ∈ roster)
    (hnodup : roster.Nodup) (notice : Notice) : heard l (toAll roster notice) = [notice] := by
  have hmap : heard l (toAll roster notice) = (roster.filter (· == l)).map (fun _ => notice) := by
    simp only [heard, toAll, List.filter_map, List.map_map]
    rfl
  -- it is on the roster once, so one entry is left by the filter
  rw [hmap, List.filter_beq, hnodup.count, if_pos hl]
  rfl

/-- Who is not on the roster hears nothing. -/
theorem heard_toAll_of_not_mem {l : Listener} {roster : List Listener} (hl : l ∉ roster)
    (notice : Notice) : heard l (toAll roster notice) = [] := by
  simp only [heard, toAll, List.map_eq_nil_iff, List.filter_eq_nil_iff]
  rintro p hp
  obtain ⟨j, hj, rfl⟩ := List.mem_map.1 hp
  simp only [decide_eq_true_eq]
  rintro rfl
  exact hl hj

/-- By the script, a listener that is not registered hears nothing. -/
theorem heard_script_of_absent {l : Listener} {roster : List Listener} {records : List Record}
    (hl : l ∉ roster) (hnever : .registered l ∉ records) :
    heard l (script roster records) = [] := by
  induction records generalizing roster with
  | nil => rfl
  | cons x records ih =>
    -- only its registration could bring it onto the roster
    have hroster : l ∉ x.enroll roster := by
      intro hmem
      cases x with
      | registered j =>
        rcases List.mem_append.1 hmem with hmem | hmem
        · exact hl hmem
        · exact hnever (List.mem_singleton.1 hmem ▸ List.mem_cons_self)
      | dropped j => exact hl (List.mem_filter.1 hmem).1
      | _ => exact hl hmem
    have hnow : heard l (x.notice?.toList.flatMap (toAll roster)) = [] := by
      cases x.notice? with
      | none => rfl
      | some notice =>
        simp only [Option.toList_some, List.flatMap_cons, List.flatMap_nil, List.append_nil]
        exact heard_toAll_of_not_mem hl notice
    rw [script, heard_append, hnow, ih hroster (List.not_mem_of_not_mem_cons hnever)]
    rfl

/-- By the script, a listener that stays alive hears every notice. -/
theorem heard_script {l : Listener} {roster : List Listener} {records : List Record}
    (hl : l ∈ roster) (hnodup : (roster ++ records.filterMap Record.registered?).Nodup)
    (hkept : .dropped l ∉ records) : heard l (script roster records) = notices records := by
  induction records generalizing roster with
  | nil => rfl
  | cons x records ih =>
    -- it stays on the roster, as it is not dropped
    have hmem : l ∈ x.enroll roster := by
      cases x with
      | registered j => exact List.mem_append_left _ hl
      | dropped j =>
        refine List.mem_filter.2 ⟨hl, ?_⟩
        simp only [ne_eq, decide_not, Bool.not_eq_true', decide_eq_false_iff_not]
        rintro rfl
        exact hkept List.mem_cons_self
      | _ => exact hl
    -- and nobody is registered twice
    have hrest : (x.enroll roster ++ records.filterMap Record.registered?).Nodup := by
      cases x with
      | registered j =>
        have hsame : roster ++ (Record.registered j :: records).filterMap Record.registered? =
            roster ++ [j] ++ records.filterMap Record.registered? := by
          simp [Record.registered?]
        exact hsame ▸ hnodup
      | dropped j =>
        exact hnodup.sublist (List.Sublist.append_right List.filter_sublist _)
      | _ => exact hnodup
    have hroster : roster.Nodup := (List.nodup_append.1 hnodup).1
    -- being on the roster once, it hears the notice once
    have hnow : heard l (x.notice?.toList.flatMap (toAll roster)) = x.notice?.toList := by
      cases x.notice? with
      | none => rfl
      | some notice =>
        simp only [Option.toList_some, List.flatMap_cons, List.flatMap_nil, List.append_nil]
        exact heard_toAll hl hroster notice
    rw [script, heard_append, hnow, ih hmem hrest (List.not_mem_of_not_mem_cons hkept), notices,
      notices, List.filterMap_cons]
    cases x.notice? <;> rfl

/-- Who is on a roster was on it at the start or was registered since. -/
theorem alive_sublist (roster : List Listener) (records : List Record) :
    (alive roster records).Sublist (roster ++ records.filterMap Record.registered?) := by
  induction records generalizing roster with
  | nil => simp [alive]
  | cons x records ih =>
    have hrest : (alive roster (x :: records)).Sublist
        (x.enroll roster ++ records.filterMap Record.registered?) := ih (x.enroll roster)
    cases x with
    | registered l =>
      have hsame : roster ++ (Record.registered l :: records).filterMap Record.registered? =
          roster ++ [l] ++ records.filterMap Record.registered? := by
        simp [Record.registered?]
      rw [hsame]
      exact hrest
    -- a dropped listener leaves the roster
    | dropped l => exact hrest.trans (List.Sublist.append_right List.filter_sublist _)
    | _ => exact hrest

/-! ## The balance

`Account` has the equation between the two, with what is outstanding on one side and what is
imminent on the other. A move of the host changes the sides together, or both stay as they are;
there is a lemma for each sort of move. -/

/-- What goes on inside an operation: jobs are done, consumers return, and they use caches. -/
def Action.isInner : Action → Bool
  | .step | .answer _ | .cacheLookup _ _ _ | .cacheInsert _ _ _ | .cacheRemove _ _ _ => true
  | _ => false

/-- While listeners are told, nobody changes the context, and nobody comes or goes. -/
def Discreet (h : Host) (a : Action) : Prop := h.agenda = [] ∨ a.isInner = true

/-- Where nobody interferes, announcements are made one at a time. -/
theorem Discreet.orderly {h : Host} {a : Action} (hok : h.Discreet a) : h.Orderly a := by
  intro hannounces
  rcases hok with hidle | hinner
  · exact hidle
  · cases a <;> first | exact absurd hinner Bool.false_ne_true | exact hannounces.elim

namespace Phase

/-- Who is yet to be told. -/
def outstanding : Phase → List (Listener × Notice)
  | .between _ => []
  | .telling _ notice waiting _ => toAll waiting notice

/-- What the script will have once the value that is announced has gone. -/
def imminent (roster : List Listener) : Phase → List (Listener × Notice)
  | .telling _ (.deleted v) _ _ => toAll roster (.deleted v)
  | _ => []

variable {φ : Phase} {later : List (Ref .value)}

/-- Between two announcements nobody is left to be told, -/
theorem Done.outstanding (hdone : φ.Done later) : φ.outstanding = [] := by
  rcases hdone with rfl | ⟨old, new, rfl⟩ <;> rfl

/-- nothing is announced that has not happened, -/
theorem Done.imminent (hdone : φ.Done later) (roster : List Listener) :
    φ.imminent roster = [] := by
  rcases hdone with rfl | ⟨old, new, rfl⟩ <;> rfl

/-- and all that is left are deletions. -/
theorem Done.jobs (hdone : φ.Done later) : φ.jobs = later.map (.delete soleContext) := by
  rcases hdone with rfl | ⟨old, new, rfl⟩ <;> rfl

end Phase

/-- What listeners were told against the script. -/
structure Account (h : Host) (φ : Phase) (r : List Record) : Prop where
  /-- The roster is the one on record. -/
  enrolled : h.Enrolled r
  /-- What was told and what is outstanding is the script and what is imminent. -/
  balance : deliveries r ++ φ.outstanding = script [] r ++ φ.imminent (alive [] r)
  /-- A notice that is being announced holds, so those who are yet to be told find it so. -/
  holds : ∀ {current notice waiting later}, φ = .telling current notice waiting later →
    φ.jobs ≠ [] → notice.Holds h.store
  /-- Every notice held at the moment it was told. -/
  told : ∀ {l notice s}, .told l notice s ∈ r → notice.Holds s

variable {h h' : Host} {φ φ' : Phase} {r rs : List Record}

/-- When nobody is being told, the next notice goes to everyone on the roster. -/
theorem audience_of_done (hs : h.Sole) (he : h.Enrolled r) (hφ : h.InPhase φ)
    {later : List (Ref .value)} (hdone : φ.Done later) : h.audience = alive [] r := by
  -- the jobs that are left are about values and modules, so they hold nobody
  have hheld (l : Listener) : h.isHeld l = false := by
    refine List.any_eq_false.2 fun job hjob => ?_
    have hnobody : job.listener? = none := by
      cases hretire : job.isRetire with
      | true => cases job <;> first | rfl | cases hretire
      | false =>
        have hwork : job ∈ h.work := List.mem_filter.2 ⟨hjob, by rw [hretire]; rfl⟩
        rw [hφ, hdone.jobs] at hwork
        obtain ⟨v, -, rfl⟩ := List.mem_map.1 hwork
        rfl
    rw [hnobody]
    simp
  -- and those who are not held listen if they have not been dropped
  have hlistens : h.listensTo soleContext = h.undropped := by
    funext l
    cases l with
    | observer o =>
      simp only [listensTo, undropped, hheld, Bool.or_false]
      cases ho : h.observers.get? o with
      | none => rfl
      | some x => simp [hs.observers ho]
    | cache k =>
      simp only [listensTo, undropped, hheld, Bool.or_false]
      cases hk : h.caches.get? k with
      | none => rfl
      | some x => simp [hs.caches hk]
  rw [audience, liveListeners, hlistens, he.alive]

/-- Deliveries are in the order of the record. -/
theorem deliveries_append (first second : List Record) :
    deliveries (first ++ second) = deliveries first ++ deliveries second := List.filterMap_append

/-- A record that is neither of a notice nor of a delivery. -/
def Record.isSilent : Record → Bool
  | .used _ _ | .registered _ | .dropped _ => true
  | _ => false

/-- Such a record delivers nothing, -/
theorem deliveries_of_silent (hrs : ∀ x ∈ rs, x.isSilent = true) : deliveries rs = [] := by
  refine List.filterMap_eq_nil_iff.2 fun x hx => ?_
  have hsilent := hrs x hx
  cases x <;> first | rfl | cases hsilent

/-- and the script has nothing for it. -/
theorem script_of_silent (hrs : ∀ x ∈ rs, x.isSilent = true) (roster : List Listener) :
    script roster rs = [] := by
  induction rs generalizing roster with
  | nil => rfl
  | cons x rs ih =>
    have hx : x.notice? = none := by
      have hsilent := hrs x List.mem_cons_self
      cases x <;> first | rfl | cases hsilent
    rw [script, hx, ih fun y hy => hrs y (List.mem_cons_of_mem x hy)]
    rfl

namespace Account

/-- When nobody is being told, what was told is the script. -/
theorem settled (ha : Account h φ r) {later : List (Ref .value)} (hdone : φ.Done later) :
    deliveries r = script [] r := by
  have hbalance := ha.balance
  rwa [hdone.outstanding, hdone.imminent, List.append_nil, List.append_nil] at hbalance

/-- What holds of the notices before and of those that are new holds of all. -/
theorem told_append (ha : Account h φ r)
    (hrs : ∀ {l notice s}, .told l notice s ∈ rs → notice.Holds s) {l : Listener}
    {notice : Notice} {s : Store} (hmem : .told l notice s ∈ r ++ rs) : notice.Holds s :=
  (List.mem_append.1 hmem).elim ha.told hrs

/-- Between operations, callers may do what they like if it announces nothing. -/
theorem idle (ha : Account h φ r) (hdone : φ.Done []) (he : h'.Enrolled (r ++ rs))
    (hrs : ∀ x ∈ rs, x.isSilent = true) : Account h' φ (r ++ rs) where
  enrolled := he
  balance := by
    rw [hdone.outstanding, hdone.imminent, deliveries_append, script_append,
      deliveries_of_silent hrs, script_of_silent hrs, ha.settled hdone]
  holds _ hjobs := absurd hdone.jobs hjobs
  told := ha.told_append fun hmem => by cases hrs _ hmem

/-- A move that neither tells anyone nor makes a notice. -/
theorem stay (ha : Account h φ r) (he : h'.Enrolled (r ++ []))
    (houtstanding : φ'.outstanding = φ.outstanding)
    (himminent : ∀ roster, φ'.imminent roster = φ.imminent roster)
    (hholds : ∀ {current notice waiting later}, φ' = .telling current notice waiting later →
      φ'.jobs ≠ [] → notice.Holds h'.store) : Account h' φ' (r ++ []) where
  enrolled := he
  balance := by
    rw [List.append_nil, houtstanding, himminent]
    exact ha.balance
  holds := hholds
  told hmem := ha.told (List.append_nil r ▸ hmem)

/-- A listener that was waited for has made up its mind: nobody is told of anything, and what is
announced holds as before. -/
theorem thought {l : Listener} {notice : Notice} {waiting : List Listener}
    {later : List (Ref .value)} (ha : Account h (.telling (some l) notice waiting later) r)
    (he : h'.Enrolled (r ++ [])) (hstore : h'.store = h.store) :
    Account h' (.telling none notice waiting later) (r ++ []) := by
  refine ha.stay he rfl (fun roster => ?_) fun heq _ => ?_
  · cases notice <;> rfl
  · cases heq
    rw [hstore]
    exact ha.holds rfl (by simp [Phase.jobs])

/-- Everyone is about to be told that a value goes. -/
theorem delete (ha : Account h φ r) (he : h'.Enrolled (r ++ [])) {v : Ref .value}
    {later later' : List (Ref .value)} (hdone : φ.Done later') (haudience : h.audience = alive [] r)
    (hv : h'.store.containsValue soleContext v = true) :
    Account h' (.telling none (.deleted v) h.audience later) (r ++ []) where
  enrolled := he
  balance := by
    -- all of the script that is to come is what everyone is yet to be told
    rw [List.append_nil, ha.settled hdone, haudience]
    rfl
  holds heq _ := by
    cases heq
    exact hv
  told hmem := ha.told (List.append_nil r ▸ hmem)

/-- Everyone is about to be told that a value was replaced. -/
theorem replace (ha : Account h φ r) {old new : Ref .value}
    (he : h'.Enrolled (r ++ [.replaced old new])) (hdone : φ.Done [])
    (haudience : h.audience = alive [] r) (hholds : (Notice.replaced old new).Holds h'.store) :
    Account h' (.telling none (.replaced old new) h.audience []) (r ++ [.replaced old new]) where
  enrolled := he
  balance := by
    rw [deliveries_append, script_append, ha.settled hdone, haudience]
    simp [deliveries, Record.told?, script, Record.notice?, Phase.outstanding, Phase.imminent]
  holds heq _ := by
    cases heq
    exact hholds
  told := ha.told_append fun hmem => by cases List.mem_singleton.1 hmem

/-- The next listener is told. -/
theorem tell {l : Listener} {notice : Notice} {waiting : List Listener} {later : List (Ref .value)}
    {current : Option Listener} (ha : Account h (.telling none notice (l :: waiting) later) r)
    (he : h'.Enrolled (r ++ [.told l notice h.store])) (hstore : h'.store = h.store) :
    Account h' (.telling current notice waiting later) (r ++ [.told l notice h.store]) := by
  have hholds : notice.Holds h.store := ha.holds rfl (by simp [Phase.jobs])
  refine ⟨he, ?_, fun heq _ => ?_, ha.told_append fun hmem => ?_⟩
  · -- one delivery more on record is one less outstanding
    have hbalance := ha.balance
    have himminent : (Phase.telling current notice waiting later).imminent (alive [] r) =
        (Phase.telling none notice (l :: waiting) later).imminent (alive [] r) := by
      cases notice <;> rfl
    have halive : alive [] (r ++ [.told l notice h.store]) = alive [] r := by
      rw [alive_append]
      rfl
    have hscript : script [] (r ++ [.told l notice h.store]) = script [] r := by
      rw [script_append]
      exact List.append_nil _
    rw [halive, himminent, hscript, ← hbalance, deliveries_append, List.append_assoc]
    rfl
  · cases heq
    rw [hstore]
    exact hholds
  · cases List.mem_singleton.1 hmem
    exact hholds

/-- A value goes when everyone has been told. -/
theorem release {v : Ref .value} {later later' : List (Ref .value)}
    (ha : Account h (.telling none (.deleted v) [] later) r)
    (he : h'.Enrolled (r ++ [.released v])) :
    Account h' (.between later') (r ++ [.released v]) where
  enrolled := he
  balance := by
    -- everyone has been told of it already, and now the script has it, too
    have hbalance : deliveries r = script [] r ++ toAll (alive [] r) (.deleted v) := by
      have hbalance := ha.balance
      simp only [Phase.outstanding, toAll, List.map_nil, List.append_nil] at hbalance
      exact hbalance
    rw [deliveries_append, script_append, hbalance]
    simp [deliveries, Record.told?, script, Record.notice?, Phase.outstanding, Phase.imminent]
  holds heq := by cases heq
  told := ha.told_append fun hmem => by cases List.mem_singleton.1 hmem

end Account

/-- New users are announced to nobody. -/
theorem used_silent (users : List (User × Ref .value)) :
    ∀ x ∈ users.map (fun p => Record.used p.1 p.2), x.isSilent = true := by
  intro x hx
  obtain ⟨p, -, rfl⟩ := List.mem_map.1 hx
  rfl

/-- **The account is in order after a move if it was before.** Callers move the host only between
announcements, where what was told is the script; inside an operation it is the jobs that move it.
-/
theorem account_of_move {a : Action} (hs : h.Sole) (hφ : h.InPhase φ) (hok : h.Discreet a)
    (hstep : Step h a h' rs) (hmove : Move h φ a h' φ' rs) (ha : Account h φ r) :
    Account h' φ' (r ++ rs) := by
  have he := enrolled_of_step hstep ha.enrolled
  -- a caller who acts finds nothing left to do
  have hbetween (hinner : a.isInner ≠ true) : φ.Done [] :=
    hφ.done_of_idle (hok.resolve_right hinner)
  cases hmove with
  | @edit _ e users s hchange =>
    exact ha.idle (hbetween Bool.false_ne_true) he (used_silent users)
  | addObserver =>
    exact ha.idle (hbetween Bool.false_ne_true) he (by simp [Record.isSilent])
  | dropObserver hx hlive =>
    exact ha.idle (hbetween Bool.false_ne_true) he (by simp [Record.isSilent])
  | createCache onDeleted onReplaced =>
    exact ha.idle (hbetween Bool.false_ne_true) he (by simp [Record.isSilent])
  | disposeCache hx hlive =>
    exact ha.idle (hbetween Bool.false_ne_true) he (by simp [Record.isSilent])
  | @delete _ a v first later agenda hdone hfrom hv =>
    refine ha.delete he hdone (audience_of_done hs ha.enrolled hφ hdone) ?_
    exact (hs.containsValue v).trans hv
  | @replace _ old new agenda hidle hdone hne hold =>
    refine ha.replace he hdone (audience_of_done hs ha.enrolled hφ hdone) fun u => ?_
    -- redirecting leaves nobody behind
    have htarget : (h.store.rewire old (some new)).target? u =
        (h.store.target? u).map (redirected old (some new)) := h.store.target?_rewire old _ u
    rw [htarget]
    intro heq
    obtain ⟨t, -, ht⟩ := Option.map_eq_some_iff.1 heq
    unfold redirected at ht
    split at ht
    · exact hne (Option.some.inj ht).symm
    · contradiction
  | dispose hidle hdone hm =>
    refine ha.stay he ?_ (fun roster => ?_) fun heq => by cases heq
    · exact hdone.outstanding.symm
    · exact (hdone.imminent roster).symm
  | disposeEmpty => exact ha.stay he rfl (fun _ => rfl) ha.holds
  | tellObserver => exact ha.tell he rfl
  | tellCache hx hcurrent => exact ha.tell he rfl
  | tellNobody hx => exact ha.tell he rfl
  | skip hdone hv =>
    refine ha.stay he ?_ (fun roster => ?_) fun heq => by cases heq
    · exact hdone.outstanding.symm
    · exact (hdone.imminent roster).symm
  | release hv => exact ha.release he
  | @vanish v later agenda hv =>
    -- whoever is told of a deletion finds the value, so it cannot be gone
    have hthere : h.store.containsValue soleContext v = true :=
      ha.holds rfl (by simp [Phase.jobs, closing])
    rw [hs.containsValue, Arena.contains, hv] at hthere
    cases hthere
  -- a module that is retired takes no value along, so what is announced still holds
  | retire =>
    refine ha.stay he rfl (fun _ => rfl) fun {current notice waiting later} heq hjobs => ?_
    have hholds := ha.holds heq hjobs
    cases notice with
    | deleted v => exact hholds
    | replaced old new =>
      intro u
      cases u with
      | globalAlias v => exact hholds (.globalAlias v)
      | wrapper d => exact hholds (.wrapper d)
  | settled hidle => exact ha.thought he rfl
  | heard handle => exact ha.thought he rfl
  | _ => exact ha.stay he rfl (fun _ => rfl) ha.holds

/-- So the account is in order after every run with discreet listeners. -/
theorem account_run {actions : List Action} (hok : Along Discreet opened actions) :
    ∃ φ, (opened.run actions).InPhase φ ∧
      Account (opened.run actions) φ (opened.history actions) := by
  have hstart : Account opened (.between []) [] := by
    refine ⟨enrolled_opened, rfl, ?_, ?_⟩
    · intro current notice waiting later heq
      cases heq
    · intro l notice s hmem
      cases hmem
  exact phase_invariant (fun h a hok => hok.orderly) account_of_move hok hstart

/-! ## Values leave once

A value that has left is gone, and its reference is not given out again. This part needs no
condition on listeners. -/

/-- The values on record as gone are gone for good. -/
structure Departed (s : Store) (r : List Record) : Prop where
  /-- A value that has left is not there, and its reference was given out before. -/
  gone : ∀ {v}, v ∈ r.filterMap Record.released? → v.index < s.values.next ∧ s.values.get? v = none
  once : (r.filterMap Record.released?).Nodup

/-- What brings nothing back and releases nothing keeps the values gone. -/
theorem Departed.keep {s s' : Store} (hd : Departed s r)
    (hrs : rs.filterMap Record.released? = [])
    (hgone : ∀ {v : Ref .value}, v.index < s.values.next → s.values.get? v = none →
      v.index < s'.values.next ∧ s'.values.get? v = none) : Departed s' (r ++ rs) where
  gone {v} hv := by
    rw [List.filterMap_append, hrs, List.append_nil] at hv
    obtain ⟨hlt, hnone⟩ := hd.gone hv
    exact hgone hlt hnone
  once := by
    rw [List.filterMap_append, hrs, List.append_nil]
    exact hd.once

/-- A value that is gone stays gone when another one goes. -/
theorem get?_release_of_none {s : Store} {v w : Ref .value} (hw : s.values.get? w = none) :
    (s.release v).values.get? w = none := by
  rw [Store.get?_values_release, hw]
  split <;> rfl

/-- A value leaves the context at most once, in any run. -/
theorem departed_of_step {a : Action} (hstep : Step h a h' rs) (hd : Departed h.store r) :
    Departed h'.store (r ++ rs) := by
  cases hstep with
  | @edit e users s hchange husers =>
    refine hd.keep ?_ fun {v} hlt hnone => ⟨Nat.lt_of_lt_of_le hlt hchange.next, ?_⟩
    · refine List.filterMap_eq_nil_iff.2 fun x hx => ?_
      obtain ⟨p, -, rfl⟩ := List.mem_map.1 hx
      rfl
    -- a value that came back would be new, and have another reference
    · refine Option.eq_none_iff_forall_ne_some.2 fun y hy => ?_
      have hle := (hchange.fresh hy hnone).1
      omega
  | @replace old new hne hold =>
    refine hd.keep rfl fun {v} hlt hnone => ⟨hlt, ?_⟩
    have hget : (h.store.rewire old (some new)).values.get? v =
        (h.store.values.get? v).map (·.redirect old (some new)) :=
      h.store.get?_values_rewire old _ v
    exact hget.trans (by rw [hnone]; rfl)
  | @release v x agenda hfront hv =>
    -- references are not used again, so what goes now has not gone before
    have hlt : v.index < (h.store.release v).values.next := by
      rw [Store.next_release]
      exact h.store.values.bounded _ ((h.store.values.mem_items_iff v x).2 hv)
    have hnone : (h.store.release v).values.get? v = none := by
      rw [Store.get?_values_release, if_pos rfl]
    have hnew : v ∉ r.filterMap Record.released? := by
      intro hmem
      rw [(hd.gone hmem).2] at hv
      cases hv
    have hsplit : (r ++ [Record.released v]).filterMap Record.released? =
        r.filterMap Record.released? ++ [v] := by
      rw [List.filterMap_append]
      rfl
    refine ⟨fun {w} hw => ?_, ?_⟩
    · rw [hsplit] at hw
      rcases List.mem_append.1 hw with hw | hw
      · obtain ⟨hltw, hnonew⟩ := hd.gone hw
        exact ⟨by rw [Store.next_release]; exact hltw, get?_release_of_none hnonew⟩
      · rw [List.mem_singleton.1 hw]
        exact ⟨hlt, hnone⟩
    · rw [hsplit, List.nodup_append]
      refine ⟨hd.once, by simp, ?_⟩
      rintro w hw x hx rfl
      exact hnew (List.mem_singleton.1 hx ▸ hw)
  | @vanish v agenda hfront hv =>
    refine hd.keep rfl fun {w} hlt hnone => ⟨?_, get?_release_of_none hnone⟩
    rw [Store.next_release]
    exact hlt
  | tellCache hfront =>
    rw [store_notify]
    exact hd.keep rfl fun hlt hnone => ⟨hlt, hnone⟩
  | _ => exact hd.keep rfl fun hlt hnone => ⟨hlt, hnone⟩

/-- So it is in every run. -/
theorem departed_run (actions : List Action) :
    Departed (opened.run actions).store (opened.history actions) := by
  have hany : Along (fun _ _ => True) opened actions :=
    along_of_forall (fun _ _ => trivial) opened actions
  have hstart : Departed opened.store [] := by
    refine ⟨?_, List.nodup_nil⟩
    intro v hv
    cases hv
  refine run_invariant (P := fun h r => Departed h.store r) ?_ (r := []) sole_opened hany hstart
  intro h r a h' rs _ _ hstep hd
  exact departed_of_step hstep hd

/-! ## Delivery

What a single listener hears is read off the script: nothing before its registration, and
everything after it. -/

/-- **Every death and every replacement is announced exactly once.**

When nothing is left to do, what listeners were told is the script: every notice to everyone who
was alive then, in order of registration. So a listener hears, from its registration on and as
long as it is not dropped, of exactly the values that left the context and the replacements there
were, in that order. No value leaves twice. Whoever is told of a deletion finds the value there,
and whoever is told of a replacement finds nobody who uses the old value.

The script is made from the record of what the host did, without the deliveries; so the two sides of
the equation say independently what was to be told and what was.  On the way there, an announcement
has been made to some and not to others, and the invariant counts those who wait for it. -/
theorem announced_exactly_once {actions : List Action} (hok : Along Discreet opened actions) :
    let r := opened.history actions
    ((opened.run actions).agenda = [] →
      deliveries r = script [] r ∧
        ∀ l before after, r = before ++ .registered l :: after → .dropped l ∉ after →
          heard l (deliveries r) = notices after) ∧
    (r.filterMap Record.released?).Nodup ∧
    ∀ l notice s, .told l notice s ∈ r → notice.Holds s := by
  intro r
  obtain ⟨φ, hφ, ha⟩ := account_run hok
  refine ⟨fun hidle => ?_, (departed_run actions).once, fun l notice s hmem => ha.told hmem⟩
  have hscript : deliveries r = script [] r := ha.settled (hφ.done_of_idle hidle)
  refine ⟨hscript, fun l before after hr hkept => ?_⟩
  -- a listener is registered once
  have hregistered : (before.filterMap Record.registered? ++ [l] ++
      after.filterMap Record.registered?).Nodup := by
    have hlisteners := ha.enrolled.registered ▸ ha.enrolled.nodup
    have hsplit : (before ++ Record.registered l :: after).filterMap Record.registered? =
        before.filterMap Record.registered? ++ [l] ++ after.filterMap Record.registered? := by
      simp [Record.registered?]
    rw [← hsplit, ← hr]
    exact hlisteners
  have hnew : .registered l ∉ before := by
    intro hmem
    have hbefore : l ∈ before.filterMap Record.registered? :=
      List.mem_filterMap.2 ⟨_, hmem, rfl⟩
    have hleft := (List.nodup_append.1 hregistered).1
    exact (List.nodup_append.1 hleft).2.2 l hbefore l List.mem_cons_self rfl
  have hroster : (alive [] before ++ [l] ++ after.filterMap Record.registered?).Nodup := by
    refine hregistered.sublist (List.Sublist.append_right (List.Sublist.append_right ?_ _) _)
    exact alive_sublist [] before
  have hmem : l ∈ alive [] before ++ [l] := List.mem_append_right _ List.mem_cons_self
  -- before its registration it is on no roster, and after it on every one
  calc heard l (deliveries r)
      = heard l (script [] before) ++
          heard l (script (alive [] before) (.registered l :: after)) := by
        rw [hscript, hr, script_append, heard_append]
    _ = heard l (script (alive [] before ++ [l]) after) := by
        rw [heard_script_of_absent List.not_mem_nil hnew]
        rfl
    _ = notices after := heard_script hmem hroster hkept

/-- One observer is there from the beginning. A function is replaced by a variable; then a second
observer comes, and the function is deleted together with its argument. -/
def functionReplacedThenDeleted : List Action :=
  [.addObserver, .edit (.createModule "m"), .edit (.addFunction ⟨0⟩ "f" 1),
    .edit (.addGlobalVariable ⟨0⟩ "v"), .replaceAllUses ⟨1⟩ ⟨2⟩, .step, .answer none,
    .addObserver, .delete ⟨1⟩, .step, .answer none, .step, .answer none, .step, .step,
    .step, .answer none, .step, .answer none, .step]

/-- The second observer hears of the two values that went after it came. -/
theorem functionReplacedThenDeleted_announced :
    Along Discreet opened functionReplacedThenDeleted ∧
      (opened.run functionReplacedThenDeleted).agenda = [] ∧
      heard (.observer ⟨1⟩) (deliveries (opened.history functionReplacedThenDeleted)) =
        [.deleted ⟨1⟩, .deleted ⟨0⟩] := by
  have hok : Along Discreet opened functionReplacedThenDeleted :=
    ⟨.inl rfl, .inl rfl, .inl rfl, .inl rfl, .inl rfl, .inr rfl, .inr rfl, .inl rfl, .inl rfl,
      .inr rfl, .inr rfl, .inr rfl, .inr rfl, .inr rfl, .inr rfl, .inr rfl, .inr rfl, .inr rfl,
      .inr rfl, .inr rfl, trivial⟩
  obtain ⟨-, hheard⟩ := (announced_exactly_once hok).1 rfl
  refine ⟨hok, rfl, (hheard (.observer ⟨1⟩)
    (opened.history (functionReplacedThenDeleted.take 7)) _ rfl ?_).trans rfl⟩
  -- nothing that comes after its registration drops it
  intro hmem
  repeat
    rcases List.mem_cons.1 hmem with heq | hmem
    · cases heq
  cases hmem

end Host

end ForeignHandles
