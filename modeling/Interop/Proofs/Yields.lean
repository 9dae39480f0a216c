import Interop.Proofs.Operations

/-!
# What computations yield

A computation is described by an invariant of sessions that it keeps, by the failures that it may
end with, and by what its result is like.  The rules here follow how computations are put together, so a
traversal of rendering is one case for each form of type.

* **`Work.Yields`** — the invariant, the failures and the result of a computation.
* `Work.Gives` — a computation that does not fail, and has one result in all sessions.
* `Gives.foldlM`, `Gives.filterM`, … — loops whose steps have one result each.
-/

namespace Interop

namespace Work

variable {α β : Type} {I : Session → Prop} {fails : Failure → Prop}

/-- **What a computation yields** in sessions with an invariant, which it keeps: a result with a
property, or one of some failures. -/
def Yields (I : Session → Prop) (fails : Failure → Prop) (w : Work α) (Q : α → Prop) : Prop :=
  ∀ s, I s → I (w.exec s).2 ∧ (∀ a, (w.exec s).1 = .ok a → Q a) ∧
    ∀ failure, (w.exec s).1 = .error failure → fails failure

namespace Yields

lemma pure {Q : α → Prop} {a : α} (ha : Q a) : (Pure.pure a : Work α).Yields I fails Q :=
  fun _ hs => ⟨hs, fun _ h => Except.ok.inj h ▸ ha, fun _ h => by cases h⟩

lemma throw {Q : α → Prop} {failure : Failure} (h : fails failure) :
    (MonadExcept.throw failure : Work α).Yields I fails Q :=
  fun _ hs => ⟨hs, (fun _ hok => by cases hok), fun _ hother => Except.error.inj hother ▸ h⟩

/-- Composition. -/
lemma bind {w : Work α} {k : α → Work β} {P : α → Prop} {Q : β → Prop} (hw : w.Yields I fails P)
    (hk : ∀ a, P a → (k a).Yields I fails Q) : (w >>= k).Yields I fails Q := by
  intro s hs
  obtain ⟨hkept, hresult, hfails⟩ := hw s hs
  rw [exec_bind]
  rcases hrun : w.exec s with ⟨failure | a, t⟩
  all_goals rw [hrun] at hkept hresult hfails
  · exact ⟨hkept, (fun _ h => by cases h), fun _ h => Except.error.inj h ▸ hfails failure rfl⟩
  · exact hk a (hresult a rfl) t hkept

lemma of_ok {w : Work α} {Q : α → Prop} (hw : w.Yields I fails Q) {s t : Session} (hs : I s) {a : α}
    (hrun : w.exec s = (.ok a, t)) : Q a :=
  (hw s hs).2.1 a (congrArg Prod.fst hrun)

lemma weaken {w : Work α} {P Q : α → Prop} (hw : w.Yields I fails P) (h : ∀ a, P a → Q a) :
    w.Yields I fails Q := fun s hs =>
  ⟨(hw s hs).1, fun a ha => h a ((hw s hs).2.1 a ha), (hw s hs).2.2⟩

/-- A computation whose result is made into another one. -/
lemma map {w : Work α} {f : α → β} {P : α → Prop} {Q : β → Prop} (hw : w.Yields I fails P)
    (h : ∀ a, P a → Q (f a)) : (w >>= fun a => Pure.pure (f a)).Yields I fails Q :=
  bind hw fun a ha => pure (h a ha)

lemma get_bind {k : Session → Work α} {Q : α → Prop} (hk : ∀ s, I s → (k s).Yields I fails Q) :
    ((get : Work Session) >>= k).Yields I fails Q :=
  fun s hs => hk s hs s hs

lemma table_bind {k : SymbolTable → Work α} {Q : α → Prop}
    (hk : ∀ s, I s → (k s.table).Yields I fails Q) : (Work.table >>= k).Yields I fails Q :=
  fun s hs => hk s hs s hs

/-- Between a change and its undoing another invariant may hold. -/
lemma within {J : Session → Prop} {enter leave : Session → Session} {w : Work α} {Q : α → Prop}
    (henter : ∀ s, I s → J (enter s)) (hleave : ∀ s, J s → I (leave s))
    (hw : w.Yields J fails Q) : (Work.within enter leave w).Yields I fails Q := by
  intro s hs
  obtain ⟨hkept, hresult⟩ := hw (enter s) (henter s hs)
  rw [exec_within]
  exact ⟨hleave _ hkept, hresult⟩

/-- Whatever keeps the invariant and fails as allowed, with a property of its results that is known
otherwise. -/
lemma of_exec {w : Work α} {Q : α → Prop} (hw : ∀ s, I s → I (w.exec s).2)
    (hfails : ∀ s, I s → ∀ failure, (w.exec s).1 = .error failure → fails failure)
    (hresult : ∀ s, I s → ∀ a t, w.exec s = (.ok a, t) → Q a) : w.Yields I fails Q :=
  fun s hs => ⟨hw s hs, fun a ha => hresult s hs a _ (Prod.ext ha rfl), hfails s hs⟩

/-- Of any computation it can be said that it has a result in some session. -/
lemma results (w : Work α) : w.Yields (fun _ => True) (fun _ => True)
    fun a => ∃ s t, w.exec s = (.ok a, t) :=
  .of_exec (fun _ _ => trivial) (fun _ _ _ _ => trivial) fun s _ _ t hrun => ⟨s, t, hrun⟩

lemma mapM {f : α → Work β} {Q : β → Prop} : ∀ {xs : List α},
    (∀ x ∈ xs, (f x).Yields I fails Q) → (xs.mapM f).Yields I fails fun ys => ∀ y ∈ ys, Q y
  | [], _ => by
      rw [List.mapM_nil]
      exact pure (by simp)
  | x :: xs, h => by
      rw [List.mapM_cons]
      refine bind (h x List.mem_cons_self) fun y hy => ?_
      refine bind (mapM fun z hz => h z (List.mem_cons_of_mem _ hz)) fun ys hys => pure ?_
      exact List.forall_mem_cons.mpr ⟨hy, hys⟩

/-- What is computed for each entry of a list. -/
lemma forall₂_mapM {f : α → Work β} {Q : α → β → Prop} : ∀ {xs : List α},
    (∀ x ∈ xs, (f x).Yields I fails (Q x)) → (xs.mapM f).Yields I fails (List.Forall₂ Q xs)
  | [], _ => by
      rw [List.mapM_nil]
      exact pure .nil
  | x :: xs, h => by
      rw [List.mapM_cons]
      refine bind (h x List.mem_cons_self) fun y hy => ?_
      refine bind (forall₂_mapM fun z hz => h z (List.mem_cons_of_mem _ hz)) fun ys hys => pure ?_
      exact .cons hy hys

/-- What every step of a loop keeps of its state, the loop keeps. -/
lemma foldlM {f : β → α → Work β} {P : β → Prop} : ∀ {xs : List α} {b : β}, P b →
    (∀ b, P b → ∀ x ∈ xs, (f b x).Yields I fails P) → (xs.foldlM f b).Yields I fails P
  | [], _, hb, _ => pure hb
  | x :: xs, b, hb, h => by
      rw [List.foldlM_cons]
      refine bind (h b hb x List.mem_cons_self) fun c hc => ?_
      exact foldlM hc fun d hd y hy => h d hd y (List.mem_cons_of_mem _ hy)

/-- A filter keeps some of what was there. -/
lemma filterM {f : α → Work Bool} {xs : List α}
    (h : ∀ x ∈ xs, (f x).Yields I fails fun _ => True) :
    (xs.filterM f).Yields I fails (· ⊆ xs) := by
  rw [filterM_eq_foldlM]
  refine map (foldlM (P := (· ⊆ xs)) (List.nil_subset xs) fun kept hkept x hx =>
    map (h x hx) fun keeps _ => ?_) fun kept hkept y hy => hkept (List.mem_reverse.mp hy)
  cases keeps with
  | false => exact hkept
  | true => exact List.cons_subset.mpr ⟨hx, hkept⟩

end Yields

/-- What a filter keeps was there, whatever happens on the way. -/
lemma mem_of_filterM {f : α → Work Bool} {xs ys : List α} {s t : Session}
    (h : (xs.filterM f).exec s = (.ok ys, t)) : ys ⊆ xs := by
  have hyields : (xs.filterM f).Yields (fun _ => True) (fun _ => True) (· ⊆ xs) :=
    .filterM fun _ _ => (Yields.results _).weaken fun _ _ => trivial
  exact hyields.of_ok trivial h

/-! ## Computations with one result -/

/-- **A computation that gives one result** in all sessions with an invariant, which it keeps. -/
def Gives (I : Session → Prop) (w : Work α) (a : α) : Prop :=
  w.Yields I (fun _ => False) (· = a)

namespace Gives

lemma exec {w : Work α} {a : α} (h : w.Gives I a) {s : Session} (hs : I s) :
    (w.exec s).1 = .ok a := by
  obtain ⟨-, hresult, hfails⟩ := h s hs
  cases hrun : (w.exec s).1 with
  | error failure => exact (hfails failure hrun).elim
  | ok b => rw [hresult b hrun]

lemma pure (a : α) : (Pure.pure a : Work α).Gives I a :=
  Yields.pure rfl

/-- Composition. -/
lemma bind {w : Work α} {k : α → Work β} {a : α} {b : β} (hw : w.Gives I a)
    (hk : (k a).Gives I b) : (w >>= k).Gives I b :=
  Yields.bind hw fun _ h => h ▸ hk

lemma foldlM {f : β → α → Work β} {g : β → α → β} : ∀ {xs : List α} (b : β),
    (∀ b, ∀ x ∈ xs, (f b x).Gives I (g b x)) → (xs.foldlM f b).Gives I (xs.foldl g b)
  | [], b, _ => pure b
  | x :: xs, b, h => by
      rw [List.foldlM_cons]
      refine bind (h b x List.mem_cons_self) ?_
      exact foldlM _ fun c y hy => h c y (List.mem_cons_of_mem _ hy)

lemma filterM {f : α → Work Bool} {p : α → Bool} {xs : List α}
    (h : ∀ x ∈ xs, (f x).Gives I (p x)) : (xs.filterM f).Gives I (xs.filter p) := by
  have hgather : ∀ kept : List α, xs.foldl (fun kept x => cond (p x) (x :: kept) kept) kept =
      (xs.filter p).reverse ++ kept := by
    clear h
    induction xs with
    | nil => exact fun _ => rfl
    | cons x xs ih =>
        intro kept
        cases hx : p x <;> simp [hx, ih]
  have hresult : xs.filter p =
      (xs.foldl (fun kept x => cond (p x) (x :: kept) kept) []).reverse := by
    rw [hgather, List.append_nil, List.reverse_reverse]
  rw [filterM_eq_foldlM, hresult]
  exact bind (foldlM [] fun _ x hx => bind (h x hx) (pure _)) (pure _)

end Gives

end Work

end Interop
