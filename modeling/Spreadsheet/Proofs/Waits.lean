-- SUMMARY: The calls that wait for one another, as a graph.
import Mathlib.Data.List.Perm.Subperm
import Mathlib.Logic.Relation
import Spreadsheet.Session

/-!
# Waits

Each registered call waits for one other call. Following these waits finds all calls that a call
waits for, directly or through others, as long as they do not go round in a circle. They never
do, since a wait that would close a circle is not registered.
-/

namespace Spreadsheet

open Relation

namespace Shared

variable {shared shared' : Shared} {a b call target owner : Nat}

/-- A call is registered as waiting for another one. -/
def Waits (shared : Shared) (call owner : Nat) : Prop := shared.waits[call]? = some owner

/-- No call waits for itself, directly or through others. -/
def Acyclic (shared : Shared) : Prop := ∀ call, ¬ TransGen shared.Waits call call

/-! ## Following waits -/

theorem leadsTo_self (shared : Shared) (call count : Nat) : shared.leadsTo call count call := by
  cases count <;> simp [leadsTo]

theorem leadsTo_succ_of_waits {count : Nat} (hwaits : shared.Waits a b)
    (h : shared.leadsTo target count b) : shared.leadsTo target (count + 1) a := by
  have hwaits : shared.waits[a]? = some b := hwaits
  simp [leadsTo, hwaits, h]

theorem leadsTo_mono {count count' : Nat} (hle : count ≤ count')
    (h : shared.leadsTo target count call) : shared.leadsTo target count' call := by
  induction count generalizing count' call with
  | zero =>
      obtain rfl : call = target := by simpa [leadsTo] using h
      exact leadsTo_self shared call count'
  | succ count ih =>
      obtain ⟨count', rfl⟩ := Nat.exists_eq_add_one_of_ne_zero (Nat.ne_zero_of_lt hle)
      simp only [leadsTo, Bool.or_eq_true, Option.any_eq_true] at h ⊢
      refine h.imp_right fun ⟨owner, howner, hnext⟩ => ⟨owner, howner, ?_⟩
      exact ih (Nat.le_of_succ_le_succ hle) hnext

theorem leadsTo_sound {count : Nat} (h : shared.leadsTo target count call) :
    ReflTransGen shared.Waits call target := by
  induction count generalizing call with
  | zero =>
      obtain rfl : call = target := by simpa [leadsTo] using h
      exact .refl
  | succ count ih =>
      simp only [leadsTo, Bool.or_eq_true, Option.any_eq_true, beq_iff_eq] at h
      obtain rfl | ⟨owner, howner, hnext⟩ := h
      · exact .refl
      · exact .head howner (ih hnext)

/-- Waits that do not go round in a circle lead to a call over calls that are all different. -/
theorem Acyclic.exists_path (hacyclic : shared.Acyclic)
    (h : ReflTransGen shared.Waits call target) :
    ∃ path : List Nat, path.Nodup ∧ (∀ a ∈ path, ReflTransGen shared.Waits call a) ∧
      (∀ a ∈ path, a ∈ shared.waits) ∧ shared.leadsTo target path.length call := by
  induction h using ReflTransGen.head_induction_on with
  | refl => exact ⟨[], List.nodup_nil, by simp, by simp, leadsTo_self shared target 0⟩
  | @head a b hwaits _ ih =>
      obtain ⟨path, hnodup, hreach, hmem, hleads⟩ := ih
      have ha : a ∉ path := fun h => hacyclic a (.head' hwaits (hreach a h))
      refine ⟨a :: path, List.nodup_cons.mpr ⟨ha, hnodup⟩, ?_, ?_, ?_⟩
      · exact List.forall_mem_cons.mpr ⟨.refl, fun x hx => .head hwaits (hreach x hx)⟩
      · refine List.forall_mem_cons.mpr ⟨?_, hmem⟩
        exact Std.TreeMap.isSome_getElem?_iff_mem.mp (Option.isSome_of_mem hwaits)
      · exact leadsTo_succ_of_waits hwaits hleads

/-- The check finds all circles that a new wait would close. -/
theorem Acyclic.circular_iff (hacyclic : shared.Acyclic) :
    shared.circular call owner ↔ ReflTransGen shared.Waits owner call := by
  refine ⟨leadsTo_sound, fun h => ?_⟩
  obtain ⟨path, hnodup, -, hmem, hleads⟩ := hacyclic.exists_path h
  refine leadsTo_mono ?_ hleads
  have hsubset : path ⊆ shared.waits.keys := fun a ha =>
    Std.TreeMap.mem_keys.mpr (hmem a ha)
  rw [← Std.TreeMap.length_keys]
  exact (List.subperm_of_subset hnodup hsubset).length_le

/-! ## Registering -/

/-- A way over the old waits and one new one takes the new one once at most. -/
theorem transGen_of_new_wait (hsame : ∀ a b, shared'.Waits a b → shared.Waits a b ∨
    a = call ∧ b = owner) (h : TransGen shared'.Waits a b) :
    TransGen shared.Waits a b ∨
      ReflTransGen shared.Waits a call ∧ ReflTransGen shared.Waits owner b := by
  induction h with
  | single hstep =>
      obtain hstep | ⟨rfl, rfl⟩ := hsame _ _ hstep
      · exact .inl (.single hstep)
      · exact .inr ⟨.refl, .refl⟩
  | tail _ hstep ih =>
      obtain hstep | ⟨rfl, rfl⟩ := hsame _ _ hstep
      · exact ih.imp (·.tail hstep) fun ⟨hto, hfrom⟩ => ⟨hto, hfrom.tail hstep⟩
      · obtain h | ⟨hto, -⟩ := ih
        · exact .inr ⟨h.to_reflTransGen, .refl⟩
        · exact .inr ⟨hto, .refl⟩

theorem Acyclic.of_new_wait (hacyclic : shared.Acyclic)
    (hsame : ∀ a b, shared'.Waits a b → shared.Waits a b ∨ a = call ∧ b = owner)
    (h : ¬ ReflTransGen shared.Waits owner call) : shared'.Acyclic := by
  intro a ha
  obtain ha | ⟨hto, hfrom⟩ := transGen_of_new_wait hsame ha
  · exact hacyclic a ha
  · exact h (hfrom.trans hto)

theorem Acyclic.of_fewer_waits (hacyclic : shared.Acyclic)
    (hsame : ∀ a b, shared'.Waits a b → shared.Waits a b) : shared'.Acyclic :=
  fun a ha => hacyclic a (TransGen.mono hsame a a ha)

end Shared

end Spreadsheet
