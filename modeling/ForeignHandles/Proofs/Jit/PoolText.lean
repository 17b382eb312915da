import ForeignHandles.Proofs.Jit.Counts
import ForeignHandles.Proofs.Text.ByteOrder
import ForeignHandles.Proofs.Text.Message

/-!
  What a pool prints depends on its names and their pointers only.

  Entries are kept in the order in which they were made, and they are made and cleared at different
  times in different runs.  What is printed is sorted.  A pool has one entry for a name, so no two
  entries are in the same place of the order (`ascending_listing`), and there is one way to put the
  entries in order (`Ascending.eq_of_mem_iff`).  The count that is printed is the number of pointers,
  as the books are balanced.

  The text is made for people to read and for tests to compare. That it is a function of the names
  and their numbers of pointers is what makes it fit for the second purpose.
-/
namespace ForeignHandles.Jit

variable {j j' : Jit} {pool pool' : Ref .pool} {l l' : List (String × Nat)}

/-- The names of a pool, each with the number of pointers to its entry. -/
def tally (j : Jit) (pool : Ref .pool) : List (String × Nat) :=
  (j.entriesOf pool).map fun p => (p.2.name, j.holders p.1)

/-- A line for each name and its number. -/
def dump (l : List (String × Nat)) : String :=
  String.join (l.map fun p => p.1 ++ ": " ++ toString p.2 ++ "\n")

/-- Names come in the order of their bytes, and each comes once. -/
def Ascending (l : List (String × Nat)) : Prop :=
  l.Pairwise fun p q => Utf8.encode p.1 < Utf8.encode q.1

instance (l : List (String × Nat)) : Decidable (Ascending l) :=
  inferInstanceAs (Decidable (l.Pairwise _))

/-- There is one way to put names in order. -/
theorem Ascending.eq_of_mem_iff (hl : Ascending l) (hl' : Ascending l')
    (h : ∀ p, p ∈ l ↔ p ∈ l') : l = l' := by
  have hnodup {l : List (String × Nat)} (hl : Ascending l) : l.Nodup := by
    refine hl.imp fun {p q} hlt heq => ?_
    rw [heq] at hlt
    exact List.lt_irrefl _ hlt
  have hperm : l.Perm l' := (List.perm_ext_iff_of_nodup (hnodup hl) (hnodup hl')).2 h
  exact hperm.eq_of_pairwise (fun _ _ _ _ hlt hgt => absurd hgt (List.lt_asymm hlt)) hl hl'

/-- The entries of a pool as they are printed. -/
def listing (j : Jit) (pool : Ref .pool) : List (String × Nat) :=
  (((j.entriesOf pool).map (·.2)).mergeSort fun a b => decide (a.name ≤ b.name)).map
    fun x => (x.name, x.count)

/-- The text of a pool lists its entries. -/
theorem poolText_eq (j : Jit) (pool : Ref .pool) : j.poolText pool = dump (j.listing pool) := by
  rw [dump, listing, List.map_map]
  rfl

/-- Sorting puts no name before a smaller one. -/
theorem pairwise_mergeSort_name (es : List PoolEntry) :
    (es.mergeSort fun a b => decide (a.name ≤ b.name)).Pairwise fun a b => a.name ≤ b.name := by
  refine (List.pairwise_mergeSort ?_ ?_ es).imp of_decide_eq_true
  · intro a b c hab hbc
    exact decide_eq_true (String.le_trans (of_decide_eq_true hab) (of_decide_eq_true hbc))
  · intro a b
    simpa using String.le_total a.name b.name

namespace Balanced

/-- All entries are printed, and with their numbers of pointers. -/
theorem perm_listing (hb : Balanced j []) (pool : Ref .pool) :
    (j.listing pool).Perm (j.tally pool) := by
  have hcount : ((j.entriesOf pool).map (·.2)).map (fun x => (x.name, x.count)) = j.tally pool := by
    rw [List.map_map]
    refine List.map_congr_left fun p hp => ?_
    have hget := (j.entries.mem_items_iff p.1 p.2).1 (List.mem_filter.1 hp).1
    rw [Function.comp_apply, ← refCount_of_get? hget, hb.count_holders]
  rw [← hcount]
  exact (List.mergeSort_perm _ _).map _

/-- Sorting puts no name before a smaller one, and as no name comes twice, each is smaller than those
behind it. -/
theorem ascending_listing (hb : Balanced j []) (pool : Ref .pool) :
    Ascending (j.listing pool) := by
  have hnames : ((j.listing pool).map (·.1)).Nodup := by
    have htally : (j.tally pool).map (·.1) = (j.entriesOf pool).map (·.2.name) := List.map_map
    rw [((hb.perm_listing pool).map _).nodup_iff, htally]
    exact hb.nodup_names pool
  have hdistinct := List.pairwise_map.1 (List.pairwise_map.1 hnames)
  refine List.pairwise_map.2 (((pairwise_mergeSort_name _).and hdistinct).imp fun {a b} hab => ?_)
  obtain ⟨hle, hne⟩ := hab
  refine Utf8.encode_lt_encode (Decidable.byContradiction fun hnot => ?_)
  exact hne (String.le_antisymm hle (String.not_lt.1 hnot))

/-- Pools with the same names and numbers print the same. -/
theorem poolText_eq_of_mem_iff (hb : Balanced j []) (hb' : Balanced j' [])
    (h : ∀ p, p ∈ j.tally pool ↔ p ∈ j'.tally pool') : j.poolText pool = j'.poolText pool' := by
  have hsame : j.listing pool = j'.listing pool' := by
    refine (hb.ascending_listing pool).eq_of_mem_iff (hb'.ascending_listing pool') fun p => ?_
    rw [(hb.perm_listing pool).mem_iff, (hb'.perm_listing pool').mem_iff]
    exact h p
  rw [poolText_eq, poolText_eq, hsame]

end Balanced

/-- **Pool texts are canonical.**

Whatever happens to sessions, the text of a pool has a line for each of its entries and no other, in
the order of the bytes of their names and with the number of pointers to the entry.  Another pool, in
whatever other run, has the same text if it has the same names with the same numbers of pointers.
Read as a message, the text ends at its first NUL. -/
theorem pool_text_is_canonical (actions : List Action) (pool : Ref .pool) :
    (∃ l : List (String × Nat), l.Perm ((initial.run actions).tally pool) ∧ Ascending l ∧
      (initial.run actions).poolText pool = dump l) ∧
    (∀ actions' pool',
      (∀ p, p ∈ (initial.run actions).tally pool ↔ p ∈ (initial.run actions').tally pool') →
        (initial.run actions).poolText pool = (initial.run actions').poolText pool') ∧
    ∃ m, (initial.run actions).poolMessage (some pool) = some m ∧
      m.visible = Utf8.encode (String.ofList
        (((initial.run actions).poolText pool).toList.takeWhile isVisible)) := by
  have hb (actions : List Action) : Balanced (initial.run actions) [] :=
    balanced_run actions balanced_initial
  refine ⟨⟨_, (hb actions).perm_listing pool, (hb actions).ascending_listing pool,
    poolText_eq _ pool⟩, fun actions' pool' h => ?_, _, rfl, Message.visible_ofString _⟩
  exact (hb actions).poolText_eq_of_mem_iff (hb actions') h

/-- Two names, and another pointer to the first. -/
def cloning : List Action :=
  [.createSession, .intern ⟨0⟩ "sub", .intern ⟨0⟩ "add", .clonePointer ⟨0⟩]

/-- The same names in the other order, one of them defined by a dylib, and one that is gone. -/
def defining : List Action :=
  [.createSession, .createDylib ⟨0⟩ "main", .intern ⟨0⟩ "add", .intern ⟨0⟩ "mul", .define ⟨0⟩ "sub",
    .dropPointer ⟨1⟩, .clearDeadEntries ⟨0⟩]

/-- Both pools print the two names in order, with one pointer to the first and two to the second. -/
theorem cloning_as_defining : (initial.run cloning).poolText ⟨0⟩ = "add: 1\nsub: 2\n" ∧
    (initial.run cloning).poolText ⟨0⟩ = (initial.run defining).poolText ⟨0⟩ := by
  have hcloning : (initial.run cloning).tally ⟨0⟩ = [("sub", 2), ("add", 1)] := by decide
  have hdefining : (initial.run defining).tally ⟨0⟩ = [("add", 1), ("sub", 2)] := by decide
  obtain ⟨⟨l, hperm, hl, htext⟩, hsame, -⟩ := pool_text_is_canonical cloning ⟨0⟩
  constructor
  · rw [hcloning] at hperm
    -- the two lines can only be in this order
    have hsorted : l = [("add", 1), ("sub", 2)] := by
      refine hl.eq_of_mem_iff (by decide) fun p => ?_
      rw [hperm.mem_iff]
      simp [or_comm]
    rw [htext, hsorted]
    decide
  · refine hsame defining ⟨0⟩ fun p => ?_
    rw [hcloning, hdefining]
    simp [or_comm]

end ForeignHandles.Jit
