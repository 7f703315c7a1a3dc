import Mathlib.Data.List.Basic

/-!
# Threads by what they are about

Of the threads of a process, those that are about one thing.  A step of a thread changes this list
for no other thing.
-/

namespace Foundation

variable {θ κ : Type} [DecidableEq κ] (token : θ → Option κ) {t t' : κ} {u v : θ}

/-- The threads that are about `t`. -/
def about (t : κ) (threads : List θ) : List θ :=
  threads.filter fun u => token u == some t

theorem about_append (t : κ) (threads threads' : List θ) :
    about token t (threads ++ threads') = about token t threads ++ about token t threads' :=
  List.filter_append ..

theorem about_other (h : token u ≠ some t) : about token t [u] = [] := by
  simp [about, h]

theorem about_same (h : token u = some t) : about token t [u] = [u] := by
  simp [about, h]

theorem about_none (h : token u = none) : about token t [u] = [] :=
  about_other token (by rw [h]; nofun)

theorem about_ne (hu : token u = some t) (ht : t' ≠ t) : about token t' [u] = [] :=
  about_other token (by rw [hu]; simpa using Ne.symm ht)

/-- A thread goes on as another one about the same thing. -/
theorem about_pair (hu : token u = some t) (hv : token v = some t) (ht : t' ≠ t) :
    about token t' [v] = about token t' [u] := by
  rw [about_ne token hv ht, about_ne token hu ht]

/-- The list around the element at a position. -/
theorem eq_take_append_drop {threads : List θ} {index : Nat} (h : threads[index]? = some u) :
    threads = threads.take index ++ [u] ++ threads.drop (index + 1) := by
  obtain ⟨hlt, rfl⟩ := List.getElem?_eq_some_iff.mp h
  rw [List.append_assoc, List.singleton_append, List.getElem_cons_drop, List.take_append_drop]

end Foundation
