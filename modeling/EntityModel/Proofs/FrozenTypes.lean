/-
Frozen types in the course of operations.

A step never gives up a frozen type (`Step.get?_of_isFrozen`): a simple one stays what it is,
and a complex one keeps its name, its shape and whether it is instantiable, and its lists of
subtypes and of usages only grow at the end (`TypeNode.Keeps`).
-/
import EntityModel.Proofs.Steps

namespace EntityModel

/-- What a frozen type may become. -/
inductive TypeNode.Keeps : TypeNode → TypeNode → Prop
  | simple {t : SimpleType} : Keeps (.simple t) (.simple t)
  | complex {t t' : ComplexType} (name : t'.qualifiedName = t.qualifiedName)
      (lifecycle : t'.lifecycle = t.lifecycle) (instantiable : t'.instantiable = t.instantiable)
      (subTypes : t.subTypes <+: t'.subTypes) (usages : t.usages <+: t'.usages) :
      Keeps (.complex t) (.complex t')

theorem TypeNode.Keeps.refl (n : TypeNode) : n.Keeps n := by
  cases n with
  | simple t => exact .simple
  | complex t => exact .complex rfl rfl rfl (List.prefix_refl _) (List.prefix_refl _)

theorem TypeNode.Keeps.trans {n n₁ n₂ : TypeNode} (first : n.Keeps n₁) (second : n₁.Keeps n₂) :
    n.Keeps n₂ := by
  cases first with
  | simple => exact second
  | complex name lifecycle instantiable subTypes usages =>
    cases second with
    | complex name' lifecycle' instantiable' subTypes' usages' =>
      exact .complex (name'.trans name) (lifecycle'.trans lifecycle)
        (instantiable'.trans instantiable) (subTypes.trans subTypes') (usages.trans usages')

theorem TypeNode.Keeps.isFrozen {n n' : TypeNode} (h : n.Keeps n') : n'.isFrozen = n.isFrozen := by
  cases h with
  | simple => rfl
  | complex _ lifecycle _ _ _ => exact congrArg Lifecycle.isFrozen lifecycle

namespace ComplexType

variable {t t' : ComplexType}

/-- A change that a frozen type admits leaves its name and shape alone. -/
theorem Change.keeps (h : t.Change t') (frozen : t.isFrozen = true) :
    (TypeNode.complex t).Keeps (.complex t') := by
  cases h.effect with
  | declares building grows => exact absurd building (not_building_of_isFrozen frozen _)
  | keeps name lifecycle admitted =>
    obtain ⟨instantiable, subTypes, usages⟩ := admitted frozen
    exact .complex name lifecycle instantiable subTypes usages

end ComplexType

theorem SimpleType.addSuperType_eq_ok {t t' : SimpleType} {s : TypeId}
    (h : t.addSuperType s = .ok t') :
    t.isFrozen = false ∧ t' = { t with superTypes := appendNew t.superTypes s } := by
  rw [addSuperType] at h
  split at h
  · cases h
  · next fresh =>
    cases h
    exact ⟨by simpa using fresh, rfl⟩

namespace Repository

variable {G : TypeNode → Prop} {r r' : Repository} {id u : TypeId} {n n' : TypeNode}

theorem get?_push_of_some (found : r.get? id = some n) (n' : TypeNode) :
    (r.push n').get? id = some n := by
  rw [get?_push, if_neg, found]
  rintro rfl
  rw [get?_nextId] at found
  cases found

theorem get?_set_self (found : r.get? id = some n) (n' : TypeNode) :
    (r.set id n').get? id = some n' := by
  rw [get?_set, if_pos rfl, found]
  rfl

theorem get?_set_of_ne (other : u ≠ id) (n' : TypeNode) : (r.set id n').get? u = r.get? u := by
  rw [get?_set, if_neg other]

/-- A type that is replaced by what it may become. -/
theorem exists_keeps_set (found : r.get? id = some n) (here : u = id → n.Keeps n')
    {m : TypeNode} (found' : r.get? u = some m) :
    ∃ m', (r.set id n').get? u = some m' ∧ m.Keeps m' := by
  by_cases same : u = id
  · obtain rfl := Option.some.inj ((same ▸ found').symm.trans found)
    subst same
    exact ⟨n', get?_set_self found n', here rfl⟩
  · exact ⟨m, (get?_set_of_ne same n').trans found', .refl m⟩

theorem Evolution.keeps {order : List TypeId} (h : Evolution r order id n n')
    (frozen : n.isFrozen = true) : n.Keeps n' := by
  cases h with
  | @simple t marked kept =>
    have same : { t with isFrozen := marked } = t := by
      rw [kept frozen]
      show { t with isFrozen := true } = t
      rw [← show t.isFrozen = true from frozen]
    rw [same]
    exact .simple
  | untouched fresh => exact absurd (frozen.symm.trans fresh) (by simp)
  | extended => exact .complex rfl rfl rfl (prefix_foldl_appendNew _ _) (List.prefix_refl _)
  | flattened _ building =>
    exact absurd building (ComplexType.not_building_of_isFrozen frozen _)

/-- A step leaves a frozen type there, and what it is. -/
theorem Step.get?_of_isFrozen (step : Step G r r') (found : r.get? id = some n)
    (frozen : n.isFrozen = true) : ∃ n', r'.get? id = some n' ∧ n.Keeps n' := by
  cases step with
  | rename u name h =>
    obtain ⟨t, t', found', renamed, rfl⟩ := rename_eq_ok h
    obtain ⟨⟨s, building⟩, -⟩ := ComplexType.rename_eq_ok renamed
    have found' := complex?_eq_some.1 found'
    refine exists_keeps_set found' (fun same => ?_) found
    subst same
    obtain rfl := Option.some.inj (found.symm.trans found')
    exact absurd building (ComplexType.not_building_of_isFrozen frozen s)
  | alter step =>
    cases step with
    | register _ h =>
      obtain ⟨-, rfl⟩ := register_eq_ok h
      exact ⟨n, get?_push_of_some found _, .refl n⟩
    | copy => exact ⟨n, get?_push_of_some found _, .refl n⟩
    | change found' h =>
      have found' := complex?_eq_some.1 found'
      refine exists_keeps_set found' (fun same => ?_) found
      subst same
      obtain rfl := Option.some.inj (found.symm.trans found')
      exact h.keeps frozen
    | restrict s found' h =>
      obtain ⟨fresh, -⟩ := SimpleType.addSuperType_eq_ok h
      refine exists_keeps_set found' (fun same => ?_) found
      subst same
      obtain rfl := Option.some.inj (found.symm.trans found')
      exact absurd (frozen.symm.trans fresh) (by simp)
    | freeze run =>
      obtain ⟨n', found', evolution⟩ := run.evolves.1.get? found
      exact ⟨n', found', evolution.keeps frozen⟩

/-- A step leaves a frozen complex type its shape. -/
theorem Step.complex?_of_isFrozen (step : Step G r r') {t : ComplexType}
    (found : r.complex? id = some t) (frozen : t.isFrozen = true) :
    ∃ t', r'.complex? id = some t' ∧ t'.isFrozen = true ∧ t'.shape = t.shape := by
  obtain ⟨n', here, keeps⟩ := step.get?_of_isFrozen (complex?_eq_some.1 found) frozen
  cases keeps with
  | complex _ lifecycle _ _ _ =>
    exact ⟨_, complex?_eq_some.2 here, (congrArg Lifecycle.isFrozen lifecycle).trans frozen,
      congrArg Lifecycle.shape lifecycle⟩

theorem Step.builtinNamespace (step : Step G r r') : r'.builtinNamespace = r.builtinNamespace := by
  cases step with
  | rename u name h =>
    obtain ⟨t, t', -, -, rfl⟩ := rename_eq_ok h
    rfl
  | alter step =>
    cases step with
    | register _ h =>
      obtain ⟨-, rfl⟩ := register_eq_ok h
      rfl
    | copy | change | restrict => rfl
    | freeze run => exact run.evolves.1.builtinNamespace

end Repository

end EntityModel
