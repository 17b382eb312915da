import ForeignHandles.Proofs.Cache.Termination
import ForeignHandles.Proofs.Host.Delivery
import ForeignHandles.Proofs.Store.Contents

/-!
  Whatever has begun can be finished.

  Jobs make more jobs: to delete a value everyone is told, and once it is released its arguments are
  to be deleted.  The work comes to an end all the same.  A job that is done is lighter than what
  comes in its place (`Job.weight`), for telling everyone who listens is less than a deletion.
  Releasing a value may bring in any number of deletions, but there is a value less then.  So each
  turn lowers the `burden`, which is how many values there are and then how heavy the agenda is.

  A job that waits for a cache takes as many returns of its consumer as the cache makes calls; they
  come to an end as well (`Cache.exists_idle`).

  The measure is a pair in lexicographic order. Releasing a value may put any number of jobs on the
  agenda, so the weight alone does not decrease; but no action inside an operation makes a value, so
  the first component never goes up while the work is done.
-/
namespace ForeignHandles

/-! ## Turns

A turn is the job in front, and whatever it takes to get it off the agenda. -/

/-- How heavy a job is if so many listen. -/
def Job.weight (listeners : Nat) : Job → Nat
  | .delete _ _ => 2 * listeners + 2
  | .tell _ _ => 2
  | _ => 1

namespace Host

variable {h : Host} {n : Nat}

/-- Something that goes on inside an operation which began when `n` jobs were left to do. -/
def Inside (n : Nat) (h : Host) (a : Action) : Prop := n < h.agenda.length ∧ a.isInner = true

instance (n : Nat) (h : Host) (a : Action) : Decidable (Inside n h a) :=
  inferInstanceAs (Decidable (_ ∧ _))

/-- How heavy some jobs are if so many listen. -/
def weigh (listeners : Nat) : List Job → Nat
  | [] => 0
  | job :: jobs => job.weight listeners + weigh listeners jobs

/-- How much there is left to do: the values that there are, and the weight of the agenda. -/
def burden (h : Host) : Nat × Nat := (h.store.values.size, weigh h.listeners.length h.agenda)

/-- What some actions bring about inside an operation that leaves `agenda`: no more than one job is
off the agenda, and the burden is less. -/
def Turn (h : Host) (agenda : List Job) (actions : List Action) : Prop :=
  Along (Inside agenda.length) h actions ∧ agenda.length ≤ (h.run actions).agenda.length ∧
    Prod.Lex (· < ·) (· < ·) (h.run actions).burden h.burden

end Host

end ForeignHandles
