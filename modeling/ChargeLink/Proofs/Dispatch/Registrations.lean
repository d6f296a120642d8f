import ChargeLink.Proofs.Dispatch.Pipeline
import Mathlib.Data.List.Perm.Basic

/-!
# Registering handlers in turn

Handlers are offered to a registry one after the other. The first one of an
action stays; every later one is turned away, and the registry is as before. So
what becomes of an action depends only on the handlers that were offered for it.

* `Registry.registerAll_one`: what comes of offering one handler.
* `Registry.mem_registerAll`: a registry holds what it held, and the first of the
  handlers offered for each action that it did not serve.
* `Registry.eq_of_handlers`: the handlers determine the registry.
* `Registry.registerAll_first`: the registry that comes of any offers.
-/

namespace ChargeLink

/-- The handler is the first of those that serve its action. -/
def Handler.First (h : Handler) (hs : List Handler) : Prop :=
  ∃ before after, hs = before ++ h :: after ∧ ∀ g ∈ before, g.action ≠ h.action

namespace Handler.First

variable {h g : Handler} {hs gs : List Handler}

theorem mem (first : h.First hs) : h ∈ hs := by
  obtain ⟨before, after, rfl, -⟩ := first
  exact List.mem_append_right _ List.mem_cons_self

/-- The first handler of an action is the one that a search for it finds. -/
theorem iff_find? : h.First hs ↔ hs.find? (fun g => g.action == h.action) = some h := by
  rw [List.find?_eq_some_iff_append]
  unfold First
  simp

/-- The first of more handlers is the first of those in front, or they serve another action. -/
theorem cons_iff : h.First (g :: hs) ↔ h = g ∨ g.action ≠ h.action ∧ h.First hs := by
  rw [iff_find?, iff_find?, List.find?_cons]
  by_cases same : g.action = h.action
  · simp [same, eq_comm]
  · have missed : (g.action == h.action) = false := by simpa using same
    have other : h ≠ g := fun e => same (congrArg Handler.action e.symm)
    simp [missed, same, other]

/-- Every action that is served has a first handler. -/
theorem exists_of_mem (mem : g ∈ hs) : ∃ h : Handler, h.First hs ∧ h.action = g.action := by
  have found : (hs.find? fun h => h.action == g.action).isSome = true := by
    rw [List.find?_isSome]
    exact ⟨g, mem, by simp⟩
  obtain ⟨h, hh⟩ := Option.isSome_iff_exists.1 found
  have same : h.action = g.action := by simpa using List.find?_some hh
  exact ⟨h, iff_find?.2 (same ▸ hh), same⟩

/-- Which handler is the first depends only on those that serve its action. -/
theorem iff_filter :
    h.First hs ↔ (hs.filter fun g => g.action == h.action).head? = some h := by
  rw [iff_find?, List.head?_filter]

/-- If all handlers serve different actions, each is the first of its own. -/
theorem of_nodup (distinct : (hs.map Handler.action).Nodup) (mem : h ∈ hs) : h.First hs := by
  obtain ⟨g, first, same⟩ := exists_of_mem mem
  rwa [List.inj_on_of_nodup_map distinct mem first.mem same.symm]

end Handler.First

namespace Registry

variable {r s : Registry} {h g : Handler} {hs gs : List Handler} {action : String}
  {version : Version} {role : Role}

/-! ## One handler -/

theorem contains_iff : r.contains action = true ↔ ∃ h ∈ r.handlers, h.action = action := by
  simp [contains]

/-- A handler of an action that is served already is turned away. -/
theorem register_taken (taken : ∃ g ∈ r.handlers, g.action = h.action) :
    r.register h = .error (.duplicateAction h.action) := by
  unfold register
  rw [dif_pos (contains_iff.2 taken)]

/-- A handler of another action joins the others. -/
theorem register_fresh (fresh : ∀ g ∈ r.handlers, g.action ≠ h.action) :
    ∃ s, r.register h = .ok s ∧ s.version = r.version ∧ s.role = r.role ∧
      s.handlers = place h r.handlers := by
  have free : ¬r.contains h.action = true := by
    rw [contains_iff]
    rintro ⟨g, mem, same⟩
    exact fresh g mem same
  unfold register
  rw [dif_neg free]
  exact ⟨_, rfl, rfl, rfl, rfl⟩

/-- **What comes of offering one handler:** it is turned away, and the registry is as before, or it
joins the others. -/
theorem registerAll_one (r : Registry) (h : Handler) :
    (∃ g ∈ r.handlers, g.action = h.action) ∧
        r.register h = .error (.duplicateAction h.action) ∧ r.registerAll [h] = r ∨
      (∀ g ∈ r.handlers, g.action ≠ h.action) ∧ r.register h = .ok (r.registerAll [h]) ∧
        (r.registerAll [h]).version = r.version ∧ (r.registerAll [h]).role = r.role ∧
        ∀ g, g ∈ (r.registerAll [h]).handlers ↔ g = h ∨ g ∈ r.handlers := by
  by_cases taken : ∃ g ∈ r.handlers, g.action = h.action
  · have away := register_taken taken
    refine .inl ⟨taken, away, ?_⟩
    simp only [registerAll, List.foldl_cons, List.foldl_nil, away]
  · have fresh : ∀ g ∈ r.handlers, g.action ≠ h.action := by
      intro g mem same
      exact taken ⟨g, mem, same⟩
    obtain ⟨s, joins, version, role, handlers⟩ := register_fresh fresh
    have one : r.registerAll [h] = s := by
      simp only [registerAll, List.foldl_cons, List.foldl_nil, joins]
    rw [one]
    refine .inr ⟨fresh, joins, version, role, fun g => ?_⟩
    rw [handlers, mem_place]

/-! ## Any number of handlers -/

theorem registerAll_cons (r : Registry) (h : Handler) (hs : List Handler) :
    r.registerAll (h :: hs) = (r.registerAll [h]).registerAll hs :=
  rfl

theorem registerAll_append (r : Registry) (hs gs : List Handler) :
    r.registerAll (hs ++ gs) = (r.registerAll hs).registerAll gs := by
  unfold registerAll
  rw [List.foldl_append]

theorem registerAll_kind (r : Registry) (hs : List Handler) :
    (r.registerAll hs).version = r.version ∧ (r.registerAll hs).role = r.role := by
  induction hs generalizing r with
  | nil => exact ⟨rfl, rfl⟩
  | cons h hs ih =>
    rw [registerAll_cons]
    obtain ⟨version, role⟩ := ih (r.registerAll [h])
    rcases r.registerAll_one h with ⟨-, -, same⟩ | ⟨-, -, version', role', -⟩
    · rw [same] at version role ⊢
      exact ⟨version, role⟩
    · exact ⟨version.trans version', role.trans role'⟩

/-- **A registry holds what it held, and the first of the handlers offered** for each action that
it did not serve. -/
theorem mem_registerAll (r : Registry) (hs : List Handler) : h ∈ (r.registerAll hs).handlers ↔
    h ∈ r.handlers ∨ (∀ g ∈ r.handlers, g.action ≠ h.action) ∧ h.First hs := by
  induction hs generalizing r with
  | nil =>
    have none : ¬h.First [] := fun first => List.not_mem_nil first.mem
    simp [registerAll, none]
  | cons k hs ih =>
    rw [registerAll_cons, ih, Handler.First.cons_iff]
    rcases r.registerAll_one k with ⟨⟨g, mem, same⟩, -, unchanged⟩ | ⟨fresh, -, -, -, members⟩
    · -- an action that `k` serves is served already
      rw [unchanged]
      have apart : (∀ g ∈ r.handlers, g.action ≠ h.action) → k.action ≠ h.action := by
        intro others serves
        exact others g mem (same.trans serves)
      constructor
      · rintro (held | ⟨others, first⟩)
        · exact .inl held
        · exact .inr ⟨others, .inr ⟨apart others, first⟩⟩
      · rintro (held | ⟨others, rfl | ⟨-, first⟩⟩)
        · exact .inl held
        · exact absurd rfl (apart others)
        · exact .inr ⟨others, first⟩
    · -- `k` has joined, so nothing after it serves its action
      simp only [members]
      constructor
      · rintro ((rfl | held) | ⟨others, first⟩)
        · exact .inr ⟨fresh, .inl rfl⟩
        · exact .inl held
        · exact .inr ⟨fun g mem => others g (.inr mem), .inr ⟨others k (.inl rfl), first⟩⟩
      · rintro (held | ⟨others, rfl | ⟨other, first⟩⟩)
        · exact .inl (.inr held)
        · exact .inl (.inl rfl)
        · refine .inr ⟨?_, first⟩
          rintro g (rfl | mem)
          · exact other
          · exact others g mem

/-- **The handlers determine the registry,** since they stand in one order. -/
theorem eq_of_handlers (version : r.version = s.version) (role : r.role = s.role)
    (members : ∀ h, h ∈ r.handlers ↔ h ∈ s.handlers) : r = s := by
  have sorted : ∀ t : Registry, t.handlers.Pairwise fun g h => g.action < h.action :=
    fun t => List.pairwise_map.1 t.ascending
  have distinct : ∀ t : Registry, t.handlers.Nodup := by
    intro t
    refine (sorted t).imp ?_
    rintro g h less rfl
    exact String.lt_irrefl _ less
  have perm : r.handlers.Perm s.handlers :=
    (List.perm_ext_iff_of_nodup (distinct r) (distinct s)).2 members
  have handlers : r.handlers = s.handlers := by
    refine perm.eq_of_pairwise ?_ (sorted r) (sorted s)
    intro g h _ _ less more
    exact absurd more (String.lt_asymm less)
  cases r
  cases s
  simp only at version role handlers
  subst version role handlers
  rfl

/-! ## A registry that has been built -/

/-- The registry that comes of offering handlers in turn. -/
def built (version : Version) (role : Role) (hs : List Handler) : Registry :=
  (empty version role).registerAll hs

theorem mem_built : h ∈ (built version role hs).handlers ↔ h.First hs := by
  rw [built, mem_registerAll]
  simp [empty]

theorem exists_mem_built : (∃ h ∈ (built version role hs).handlers, h.action = action) ↔
    ∃ h ∈ hs, h.action = action := by
  simp only [mem_built]
  constructor
  · rintro ⟨h, first, serves⟩
    exact ⟨h, first.mem, serves⟩
  · rintro ⟨g, mem, rfl⟩
    exact Handler.First.exists_of_mem mem

/-- What is offered first for each action makes the registry. -/
theorem built_eq (first : ∀ h : Handler, h.First hs ↔ h.First gs) :
    built version role hs = built version role gs := by
  obtain ⟨version₁, role₁⟩ := (empty version role).registerAll_kind hs
  obtain ⟨version₂, role₂⟩ := (empty version role).registerAll_kind gs
  refine eq_of_handlers (version₁.trans version₂.symm) (role₁.trans role₂.symm) fun h => ?_
  rw [mem_built, mem_built, first]

/-- What comes of a registration: the action has been offered a handler before, and so the new one
is turned away and changes nothing, or it has not. -/
theorem register_built (version : Version) (role : Role) (hs : List Handler) (h : Handler) :
    ((∃ g ∈ hs, g.action = h.action) →
      (built version role hs).register h = .error (.duplicateAction h.action) ∧
        built version role (hs ++ [h]) = built version role hs) ∧
    ((∀ g ∈ hs, g.action ≠ h.action) →
      (built version role hs).register h = .ok (built version role (hs ++ [h]))) := by
  have one := (built version role hs).registerAll_one h
  rw [exists_mem_built] at one
  have more : built version role (hs ++ [h]) = (built version role hs).registerAll [h] :=
    registerAll_append ..
  rw [more]
  constructor
  · rintro ⟨g, mem, same⟩
    rcases one with ⟨-, away, unchanged⟩ | ⟨fresh, -⟩
    · exact ⟨away, unchanged⟩
    · obtain ⟨k, held, serves⟩ := exists_mem_built.2 ⟨g, mem, same⟩
      exact absurd serves (fresh k held)
  · intro fresh
    rcases one with ⟨⟨g, mem, same⟩, -⟩ | ⟨-, joins, -⟩
    · exact absurd same (fresh g mem)
    · exact joins

/-- **The registry that comes of any registrations.** Its handlers are the first ones of their
actions, and no action has two. A handler of an action that has been registered is turned away and
changes nothing; any other joins. An action is looked up to the handler that serves it, or else to a
code by whether the version defines it; the other queries agree with that. Registrations of
different actions may come in any order: only the order within each action matters, and none if all
actions are different. -/
theorem registerAll_first (version : Version) (role : Role) (hs : List Handler) :
    let r := built version role hs
    (r.version = version ∧ r.role = role) ∧
    (∀ h : Handler, h ∈ r.handlers ↔ h.First hs) ∧
    (∀ before h after, hs = before ++ h :: after →
      ((∃ g ∈ before, g.action = h.action) →
        (built version role before).register h = .error (.duplicateAction h.action) ∧
          built version role (before ++ [h]) = built version role before) ∧
      ((∀ g ∈ before, g.action ≠ h.action) →
        (built version role before).register h = .ok (built version role (before ++ [h])))) ∧
    (∀ action,
      (∀ h, r.lookup action = .ok h ↔ h.First hs ∧ h.action = action) ∧
      (∀ code, r.lookup action = .error code ↔ (∀ h ∈ hs, h.action ≠ action) ∧
        code = if action ∈ version.actions then .notSupported else .notImplemented) ∧
      (r.contains action = true ↔ ∃ h, r.lookup action = .ok h)) ∧
    (r.actions.Pairwise (· < ·) ∧ ∀ action, action ∈ r.actions ↔ ∃ h ∈ hs, h.action = action) ∧
    (r.size = r.actions.length ∧ (r.isEmpty = true ↔ r.actions = [])) ∧
    (∀ gs, (∀ action, (gs.filter fun g => g.action == action) =
      hs.filter fun h => h.action == action) → built version role gs = r) ∧
    (∀ gs, gs.Perm hs → (hs.map Handler.action).Nodup → built version role gs = r) := by
  intro r
  have kind : r.version = version ∧ r.role = role := (empty version role).registerAll_kind hs
  have members : ∀ h, h ∈ r.handlers ↔ h.First hs := fun h => mem_built
  have served : ∀ {action}, (∃ h ∈ r.handlers, h.action = action) ↔ ∃ h ∈ hs, h.action = action :=
    exists_mem_built
  refine ⟨kind, members, fun before h _ _ => register_built version role before h, ?_,
    ⟨r.ascending, ?_⟩, ⟨?_, ?_⟩, ?_, ?_⟩
  · intro action
    refine ⟨fun h => ?_, fun code => ?_, ?_⟩
    · rw [lookup_eq_ok_iff, members]
    · have unserved : (∀ h ∈ r.handlers, h.action ≠ action) ↔ ∀ h ∈ hs, h.action ≠ action := by
        have none := not_congr (@served action)
        push Not at none
        exact none
      rw [lookup_eq_error_iff, unserved, kind.1]
    · rw [contains_iff]
      simp only [lookup_eq_ok_iff]
  · intro action
    rw [actions, List.mem_map]
    exact served
  · rw [size, actions, List.length_map]
  · rw [isEmpty, actions, List.isEmpty_iff, List.map_eq_nil_iff]
  · intro gs same
    refine built_eq fun h => ?_
    rw [Handler.First.iff_filter, Handler.First.iff_filter, same]
  · intro gs perm distinct
    have distinct' : (gs.map Handler.action).Nodup := (perm.map Handler.action).nodup_iff.2 distinct
    refine built_eq fun h => ⟨fun first => ?_, fun first => ?_⟩
    · exact .of_nodup distinct (perm.mem_iff.1 first.mem)
    · exact .of_nodup distinct' (perm.mem_iff.2 first.mem)

end Registry

end ChargeLink
