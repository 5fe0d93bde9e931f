/-
The freeze as a relation.

`FreezeRun ids r order out r'` says that freezing the types `ids` one after the other
takes the repository `r` to `r'` and ends as `out`; `order` lists the complex types
frozen on the way, in the order in which that happened.  Its rules are the cases of
the freeze of one type, without fuel and without reports:

* a type that is frozen already is passed over;
* a simple type is marked first, then its super types are frozen;
* a complex type reads as empty while the super types that it keeps are frozen.  If
  that succeeds its shape is computed from what they have become (`flatten`), and it
  is linked to them (`complete`); if it fails the type gets its declared shape back.

The rules determine the outcome (`FreezeRun.unique`).
-/
import EntityModel.Proofs.FreezeSteps

namespace EntityModel

/-- The types `ids` are frozen one after the other, up to the first that fails. -/
inductive FreezeRun : List TypeId → Repository → List TypeId → Except ModelError Unit →
    Repository → Prop
  | nil {r} : FreezeRun [] r [] (.ok ()) r
  | unknown {id rest r} (absent : r.get? id = none) :
      FreezeRun (id :: rest) r [] (.error (.unknownType id)) r
  | frozen {id rest r order out r'} (done : r.isFrozen id = true)
      (tail : FreezeRun rest r order out r') :
      FreezeRun (id :: rest) r order out r'
  | simpleError {id rest r t order e r₁} (found : r.get? id = some (.simple t))
      (fresh : t.isFrozen = false)
      (supers : FreezeRun t.superTypes (r.markFrozen id t) order (.error e) r₁) :
      FreezeRun (id :: rest) r order (.error e) r₁
  | simple {id rest r t order r₁ order' out r'} (found : r.get? id = some (.simple t))
      (fresh : t.isFrozen = false)
      (supers : FreezeRun t.superTypes (r.markFrozen id t) order (.ok ()) r₁)
      (tail : FreezeRun rest r₁ order' out r') :
      FreezeRun (id :: rest) r (order ++ order') out r'
  | cyclic {id rest r t} (found : r.get? id = some (.complex t))
      (underWay : t.lifecycle = .freezing) :
      FreezeRun (id :: rest) r [] (.error (.cyclicInheritance t.name)) r
  | missing {id rest r t declared s} (found : r.get? id = some (.complex t))
      (building : t.lifecycle = .building declared)
      (absent : r.missingSuperType? declared.superTypes = some s) :
      FreezeRun (id :: rest) r [] (.error (.unknownType s)) r
  | complexError {id rest r t declared order e r₁} (found : r.get? id = some (.complex t))
      (building : t.lifecycle = .building declared)
      (known : r.missingSuperType? declared.superTypes = none)
      (supers : FreezeRun (r.keptSuperTypes t.instantiable declared.superTypes)
        (r.setLifecycle id .freezing) order (.error e) r₁) :
      FreezeRun (id :: rest) r order (.error e) (r₁.setLifecycle id (.building declared))
  | complex {id rest r t declared order r₁ order' out r'}
      (found : r.get? id = some (.complex t))
      (building : t.lifecycle = .building declared)
      (known : r.missingSuperType? declared.superTypes = none)
      (supers : FreezeRun (r.keptSuperTypes t.instantiable declared.superTypes)
        (r.setLifecycle id .freezing) order (.ok ()) r₁)
      (tail : FreezeRun rest (r₁.complete id (r₁.flatten id t.instantiable declared))
        order' out r') :
      FreezeRun (id :: rest) r (order ++ id :: order') out r'

/-- Two lists of types frozen one after the other. -/
theorem FreezeRun.append {l l' : List TypeId} {r r₁ r' : Repository} {order order' : List TypeId}
    {out : Except ModelError Unit} (first : FreezeRun l r order (.ok ()) r₁)
    (second : FreezeRun l' r₁ order' out r') : FreezeRun (l ++ l') r (order ++ order') out r' := by
  generalize ok : (.ok () : Except ModelError Unit) = fine at first
  induction first with
  | nil => exact second
  | unknown => cases ok
  | frozen done _ ih => exact .frozen done (ih second ok)
  | simpleError => cases ok
  | simple found fresh supers _ _ ih =>
    rw [List.append_assoc]
    exact .simple found fresh supers (ih second ok)
  | cyclic => cases ok
  | missing => cases ok
  | complexError => cases ok
  | complex found building known supers _ _ ih =>
    rw [List.append_assoc, List.cons_append]
    exact .complex found building known supers (ih second ok)

/-- A list of types frozen one after the other, where the first part fails. -/
theorem FreezeRun.append_error {l : List TypeId} {r r₁ : Repository} {order : List TypeId}
    {e : ModelError} (first : FreezeRun l r order (.error e) r₁) (l' : List TypeId) :
    FreezeRun (l ++ l') r order (.error e) r₁ := by
  generalize failed : (.error e : Except ModelError Unit) = out at first
  induction first with
  | nil => cases failed
  | unknown absent => exact .unknown absent
  | frozen done _ ih => exact .frozen done (ih failed)
  | simpleError found fresh supers => exact .simpleError found fresh supers
  | simple found fresh supers _ _ ih => exact .simple found fresh supers (ih failed)
  | cyclic found underWay => exact .cyclic found underWay
  | missing found building absent => exact .missing found building absent
  | complexError found building known supers =>
    exact .complexError found building known supers
  | complex found building known supers _ _ ih =>
    exact .complex found building known supers (ih failed)

/-- The rules leave no choice: what a freeze ends with and what it leaves are determined. -/
theorem FreezeRun.unique {ids order₁ order₂ : List TypeId} {r r₁ r₂ : Repository}
    {out₁ out₂ : Except ModelError Unit} (run₁ : FreezeRun ids r order₁ out₁ r₁)
    (run₂ : FreezeRun ids r order₂ out₂ r₂) : order₁ = order₂ ∧ out₁ = out₂ ∧ r₁ = r₂ := by
  -- the type at the head tells which rule applies; the others ask for another type
  induction run₁ generalizing order₂ out₂ r₂ with
  | nil =>
    cases run₂
    exact ⟨rfl, rfl, rfl⟩
  | unknown absent =>
    cases run₂ with
    | unknown => exact ⟨rfl, rfl, rfl⟩
    | _ => simp_all [Repository.isFrozen]
  | frozen done _ ih =>
    cases run₂ with
    | frozen _ tail => exact ih tail
    | _ =>
      simp_all [Repository.isFrozen, TypeNode.isFrozen, ComplexType.isFrozen, Lifecycle.isFrozen]
  | simpleError found fresh supers ih =>
    cases run₂ with
    | simpleError found' _ supers' =>
      cases found.symm.trans found'
      exact ih supers'
    | simple found' _ supers' =>
      cases found.symm.trans found'
      cases (ih supers').2.1
    | _ => simp_all [Repository.isFrozen, TypeNode.isFrozen]
  | simple found fresh supers _ ih ih' =>
    cases run₂ with
    | simpleError found' _ supers' =>
      cases found.symm.trans found'
      cases (ih supers').2.1
    | simple found' _ supers' tail' =>
      cases found.symm.trans found'
      obtain ⟨rfl, -, rfl⟩ := ih supers'
      obtain ⟨rfl, rfl, rfl⟩ := ih' tail'
      exact ⟨rfl, rfl, rfl⟩
    | _ => simp_all [Repository.isFrozen, TypeNode.isFrozen]
  | cyclic found underWay =>
    cases run₂ with
    | cyclic found' =>
      cases found.symm.trans found'
      exact ⟨rfl, rfl, rfl⟩
    | _ =>
      simp_all [Repository.isFrozen, TypeNode.isFrozen, ComplexType.isFrozen, Lifecycle.isFrozen]
  | missing found building absent =>
    cases run₂ with
    | missing found' building' absent' =>
      cases found.symm.trans found'
      cases building.symm.trans building'
      cases absent.symm.trans absent'
      exact ⟨rfl, rfl, rfl⟩
    | _ =>
      simp_all [Repository.isFrozen, TypeNode.isFrozen, ComplexType.isFrozen, Lifecycle.isFrozen]
  | complexError found building known supers ih =>
    cases run₂ with
    | complexError found' building' _ supers' =>
      cases found.symm.trans found'
      cases building.symm.trans building'
      obtain ⟨rfl, same, rfl⟩ := ih supers'
      exact ⟨rfl, same, rfl⟩
    | complex found' building' _ supers' =>
      cases found.symm.trans found'
      cases building.symm.trans building'
      cases (ih supers').2.1
    | _ =>
      simp_all [Repository.isFrozen, TypeNode.isFrozen, ComplexType.isFrozen, Lifecycle.isFrozen]
  | complex found building known supers _ ih ih' =>
    cases run₂ with
    | complexError found' building' _ supers' =>
      cases found.symm.trans found'
      cases building.symm.trans building'
      cases (ih supers').2.1
    | complex found' building' _ supers' tail' =>
      cases found.symm.trans found'
      cases building.symm.trans building'
      obtain ⟨rfl, -, rfl⟩ := ih supers'
      obtain ⟨rfl, rfl, rfl⟩ := ih' tail'
      exact ⟨rfl, rfl, rfl⟩
    | _ =>
      simp_all [Repository.isFrozen, TypeNode.isFrozen, ComplexType.isFrozen, Lifecycle.isFrozen]

end EntityModel
