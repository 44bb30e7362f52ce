import SiteCatalog.Compilation.Evaluation
import SiteCatalog.Manifest.Collection
import SiteCatalog.Proofs.Registry

/-!
# Bodies

What a body does is what its statements do, one after the other. How the statements are spread over
the declarations of a class makes no difference.

Results:
* `SameBody`: two bodies do the same wherever they run.
* `run_joinBodies`: the bodies of two declarations run one after the other.
* `exists_bodyOf_append`: the body of statements may be split anywhere.
-/

namespace SiteCatalog.Compilation

open Descriptor (joinBodies)

variable {strict : Bool} {code : Code} {type : TypeId} {id : ResourceId} {scope : ScopeId}

/-- Runs a body that may be absent. -/
def runOptional (strict : Bool) (code : Code) (type : TypeId) (id : ResourceId) (scope : ScopeId) :
    Option Body → Run Unit
  | some body => runBody strict code type id scope body
  | none => return ()

/-- Two bodies do the same wherever they run. -/
def SameBody (b b' : Option Body) : Prop :=
  ∀ strict code type id scope s,
    (runOptional strict code type id scope b').run s = (runOptional strict code type id scope b).run s

@[refl] theorem SameBody.refl (b : Option Body) : SameBody b b :=
  fun _ _ _ _ _ _ => rfl

theorem SameBody.trans {b b' b'' : Option Body} (h : SameBody b b') (h' : SameBody b' b'') :
    SameBody b b'' :=
  fun strict code type id scope s =>
    (h' strict code type id scope s).trans (h strict code type id scope s)

/-! ## Bodies after each other -/

theorem run_bind_unit (p : Run Unit) (s : State) : (p >>= fun _ => return ()).run s = p.run s := by
  rw [Run.run_bind]
  rcases p.run s with ⟨_ | _, t⟩ <;> rfl

theorem run_runBodies_append (bs cs : List Body) (s : State) :
    (runBodies strict code type id scope (bs ++ cs)).run s =
      (runBodies strict code type id scope bs >>= fun _ =>
        runBodies strict code type id scope cs).run s := by
  induction bs generalizing s with
  | nil => rfl
  | cons b rest ih =>
    rw [List.cons_append, runBodies, runBodies, Run.run_bind, Run.run_bind, Run.run_bind]
    rcases (runBody strict code type id scope b).run s with ⟨_ | _, t⟩
    · rfl
    · exact (ih t).trans (Run.run_bind ..)

theorem run_parts (b : Body) (s : State) :
    (runBodies strict code type id scope b.parts).run s =
      (runBody strict code type id scope b).run s := by
  cases b with
  | sequence parts => rfl
  | code e => exact run_bind_unit ..
  | linked b => exact run_bind_unit ..

theorem run_joinBodies (b c : Option Body) (s : State) :
    (runOptional strict code type id scope (joinBodies b c)).run s =
      (runOptional strict code type id scope b >>= fun _ =>
        runOptional strict code type id scope c).run s := by
  cases b with
  | none => rfl
  | some b =>
    cases c with
    | none => exact (run_bind_unit ..).symm
    | some c =>
      show (runBodies strict code type id scope (b.parts ++ c.parts)).run s =
        (runBody strict code type id scope b >>= fun _ => runBody strict code type id scope c).run s
      rw [run_runBodies_append, Run.run_bind, Run.run_bind, run_parts]
      rcases (runBody strict code type id scope b).run s with ⟨_ | _, t⟩
      · rfl
      · exact run_parts c t

theorem SameBody.join_left {b b' : Option Body} (h : SameBody b b') (c : Option Body) :
    SameBody (joinBodies b c) (joinBodies b' c) := by
  intro strict code type id scope s
  rw [run_joinBodies, run_joinBodies, Run.run_bind, Run.run_bind, h]

theorem SameBody.join_right {c c' : Option Body} (h : SameBody c c') (b : Option Body) :
    SameBody (joinBodies b c) (joinBodies b c') := by
  intro strict code type id scope s
  rw [run_joinBodies, run_joinBodies, Run.run_bind, Run.run_bind]
  rcases (runOptional strict code type id scope b).run s with ⟨_ | _, t⟩
  · rfl
  · exact h strict code type id scope t

/-! ## Bodies of statements -/

theorem run_evaluateBlock_append (es fs : List Expr) (last : Value) (s : State) :
    (evaluateBlock strict code scope last (es ++ fs)).run s =
      (evaluateBlock strict code scope last es >>= fun v =>
        evaluateBlock strict code scope v fs).run s := by
  induction es generalizing last s with
  | nil => rfl
  | cons e rest ih =>
    rw [List.cons_append, evaluateBlock, evaluateBlock, Run.run_bind, Run.run_bind, Run.run_bind]
    rcases (evaluate strict code scope e).run s with ⟨_ | v, t⟩
    · rfl
    · exact (ih v t).trans (Run.run_bind ..)

theorem bodyOf_of_mapM {statements : List Statement} {es : List Expr}
    (h : statements.mapM Statement.toExpr = .ok es) : ∃ b, Declaration.bodyOf statements = .ok b ∧
      ∀ strict code type id scope last s, (runOptional strict code type id scope b).run s =
        (evaluateBlock strict code scope last es >>= fun _ => return ()).run s := by
  cases statements with
  | nil =>
    cases h
    exact ⟨none, rfl, fun _ _ _ _ _ _ _ => rfl⟩
  | cons statement rest =>
    refine ⟨some (.code (.block es)), ?_, fun strict code type id scope last s => ?_⟩
    · show (Statement.blockOf _ >>= _) = _
      rw [Statement.blockOf, h]
      rfl
    · rw [runOptional, runBody, Run.run_bind, Run.run_bind, evaluate, run_follow]
      rw [List.mapM_cons] at h
      obtain ⟨e, -, h⟩ := exists_of_bind_eq_ok h
      obtain ⟨es', -, h⟩ := exists_of_bind_eq_ok h
      cases h
      rfl

theorem mapM_of_bodyOf {statements : List Statement} {b : Option Body}
    (h : Declaration.bodyOf statements = .ok b) : ∃ es, statements.mapM Statement.toExpr = .ok es := by
  unfold Declaration.bodyOf at h
  split at h
  · next hempty =>
    rw [List.isEmpty_iff.mp hempty]
    exact ⟨[], rfl⟩
  · obtain ⟨e, he, -⟩ := exists_of_bind_eq_ok h
    obtain ⟨es, hes, -⟩ := exists_of_bind_eq_ok he
    exact ⟨es, hes⟩

/-- The first statements of a body may stand in one declaration and the others in a further one. -/
theorem exists_bodyOf_append {s₁ s₂ : List Statement} {b : Option Body}
    (h : Declaration.bodyOf (s₁ ++ s₂) = .ok b) : ∃ b₁ b₂, Declaration.bodyOf s₁ = .ok b₁ ∧
      Declaration.bodyOf s₂ = .ok b₂ ∧ SameBody b (joinBodies b₁ b₂) := by
  obtain ⟨es, hes⟩ := mapM_of_bodyOf h
  obtain ⟨b', hb', hrun⟩ := bodyOf_of_mapM hes
  cases h.symm.trans hb'
  rw [List.mapM_append] at hes
  obtain ⟨es₁, hes₁, hes⟩ := exists_of_bind_eq_ok hes
  obtain ⟨es₂, hes₂, hes⟩ := exists_of_bind_eq_ok hes
  cases hes
  obtain ⟨b₁, hb₁, hrun₁⟩ := bodyOf_of_mapM hes₁
  obtain ⟨b₂, hb₂, hrun₂⟩ := bodyOf_of_mapM hes₂
  refine ⟨b₁, b₂, hb₁, hb₂, fun strict code type id scope s => ?_⟩
  rw [run_joinBodies, Run.run_bind, hrun₁ _ _ _ _ _ .undefined, hrun _ _ _ _ _ .undefined,
    Run.run_bind, Run.run_bind, run_evaluateBlock_append, Run.run_bind]
  rcases (evaluateBlock strict code scope .undefined es₁).run s with ⟨_ | v, t⟩
  · rfl
  · exact (hrun₂ _ _ _ _ _ v t).trans (Run.run_bind ..)

end SiteCatalog.Compilation
