import DurableJobs.AfterCommit

/-!
The order of the effects that follow a commit.

However effects are put together, their keys and their actions come in the order in which they were
given. All keys go to the invalidator in one call, if there are any; then every action is begun once,
when the one before it has ended. No break keeps a later action from being begun.
-/

set_option autoImplicit false

namespace DurableJobs

/-! ### Passages -/

/-- The moments of a call or an action that is begun once and ends. -/
def Happening.span (happening : Happening) (broke : Bool) : List Moment :=
  [.began happening, .ended happening broke]

namespace Passage

theorem caught_await (happening : Happening) (breaks : Bool) :
    (await happening breaks).caught = ⟨happening.span breaks, false⟩ := rfl

/-- What follows a passage that did not break comes to pass. -/
theorem andThen_of_whole {first second : Passage} (whole : first.isBroken = false) :
    first.andThen second = ⟨first.moments ++ second.moments, second.isBroken⟩ := by
  rw [andThen, whole]
  rfl

end Passage

namespace AfterCommit

theorem runActions_eq (actions : List Action) :
    runActions actions =
      ⟨actions.flatMap fun action => (Happening.ran action).span action.breaks, false⟩ := by
  induction actions with
  | nil => rfl
  | cons action rest ih =>
      rw [runActions, ih, Passage.caught_await, Passage.andThen_of_whole rfl, List.flatMap_cons]

theorem invalidateKeys_eq (effects : AfterCommit) (invalidator : Invalidator) :
    effects.invalidateKeys invalidator =
      ⟨if effects.keys = [] then []
        else (Happening.invalidated effects.keys).span invalidator.breaks, false⟩ := by
  rw [invalidateKeys, Passage.caught_await]
  cases effects.keys <;> rfl

/-- No break is left over, and whatever comes to pass ends before the next begins. -/
theorem passage_eq (effects : AfterCommit) (invalidator : Invalidator) :
    effects.passage invalidator =
      ⟨(if effects.keys = [] then []
          else (Happening.invalidated effects.keys).span invalidator.breaks) ++
        effects.actions.flatMap fun action => (Happening.ran action).span action.breaks, false⟩ := by
  rw [passage, runActions_eq, invalidateKeys_eq, Passage.andThen_of_whole rfl]

theorem begun_actions (actions : List Action) :
    (actions.flatMap fun action => (Happening.ran action).span action.breaks).filterMap
      Moment.begun? = actions.map .ran := by
  induction actions with
  | nil => rfl
  | cons action rest ih =>
      rw [List.flatMap_cons, List.filterMap_append, ih]
      rfl

theorem begun_passage (effects : AfterCommit) (invalidator : Invalidator) :
    (effects.passage invalidator).begun =
      (if effects.keys = [] then [] else [.invalidated effects.keys]) ++
        effects.actions.map .ran := by
  rw [passage_eq, Passage.begun, List.filterMap_append, begun_actions]
  congr 1
  split <;> rfl

/-- A call of the invalidator that breaks changes nothing of what is begun. -/
theorem run_eq_begun (effects : AfterCommit) (invalidator : Invalidator) :
    effects.run = (effects.passage invalidator).begun := by
  rw [run, begun_passage, begun_passage]

theorem isEmpty_iff (effects : AfterCommit) (invalidator : Invalidator) :
    effects.isEmpty = true ↔ (effects.passage invalidator).moments = [] := by
  rw [passage_eq, isEmpty, Bool.and_eq_true, List.isEmpty_iff, List.isEmpty_iff]
  by_cases noKeys : effects.keys = []
  · cases effects.actions <;> simp [noKeys, Happening.span]
  · simp [noKeys, Happening.span]

/-! ### Ways to put effects together -/

inductive Making where
  | none
  | invalidate (making : Making) (key : String)
  | andThen (making : Making) (action : Action)
  | merge (left right : Making)

namespace Making

def effects : Making → AfterCommit
  | .none => AfterCommit.none
  | .invalidate making key => making.effects.invalidate key
  | .andThen making action => making.effects.andThen action
  | .merge left right => left.effects.merge right.effects

/-- The keys and the actions from left to right. -/
def parts : Making → List (String ⊕ Action)
  | .none => []
  | .invalidate making key => making.parts ++ [.inl key]
  | .andThen making action => making.parts ++ [.inr action]
  | .merge left right => left.parts ++ right.parts

def keys (making : Making) : List String :=
  making.parts.filterMap Sum.getLeft?

def actions (making : Making) : List Action :=
  making.parts.filterMap Sum.getRight?

theorem effects_eq (making : Making) : making.effects = ⟨making.keys, making.actions⟩ := by
  induction making with
  | none => rfl
  | invalidate making key ih =>
      simp [effects, ih, AfterCommit.invalidate, keys, actions, parts]
  | andThen making action ih =>
      simp [effects, ih, AfterCommit.andThen, keys, actions, parts]
  | merge left right leftIH rightIH =>
      simp [effects, leftIH, rightIH, AfterCommit.merge, keys, actions, parts]

end Making

/-- However effects are put together and whatever breaks, the invalidator is called once with all keys
if there are any, and then every action is begun once, when the one before it has ended, all in the
order in which they were given; the effects are empty exactly if nothing comes to pass. Merging is
associative, and the empty effects are neutral. -/
theorem runs_in_order :
    (∀ (making : Making) (invalidator : Invalidator),
      (making.effects.passage invalidator).moments =
          (if making.keys = [] then []
            else [.began (.invalidated making.keys),
              .ended (.invalidated making.keys) invalidator.breaks]) ++
            making.actions.flatMap (fun action =>
              [.began (.ran action), .ended (.ran action) action.breaks]) ∧
        (making.effects.passage invalidator).isBroken = false ∧
        making.effects.run = (making.effects.passage invalidator).begun ∧
        (making.effects.isEmpty = true ↔
          (making.effects.passage invalidator).moments = [])) ∧
    (∀ first second third : AfterCommit,
      (first.merge second).merge third = first.merge (second.merge third)) ∧
    ∀ effects : AfterCommit, none.merge effects = effects ∧ effects.merge none = effects := by
  refine ⟨fun making invalidator => ⟨?_, ?_, run_eq_begun _ invalidator, isEmpty_iff _ invalidator⟩,
    fun first second third => ?_, fun effects => ⟨?_, ?_⟩⟩
  · rw [passage_eq, making.effects_eq]
    rfl
  · rw [passage_eq]
  · simp [merge]
  · simp [merge, none]
  · simp [merge, none]

/-- What breaks on the way leaves the rest as it is. -/
example :
    (((none.invalidate "workspace:1").andThen ⟨"first", false⟩).merge
      (((none.invalidate "box:9").andThen ⟨"offline", true⟩).andThen ⟨"last", false⟩)).passage
        (.noting true) =
      ⟨[.began (.invalidated ["workspace:1", "box:9"]),
          .ended (.invalidated ["workspace:1", "box:9"]) true,
          .began (.ran ⟨"first", false⟩), .ended (.ran ⟨"first", false⟩) false,
          .began (.ran ⟨"offline", true⟩), .ended (.ran ⟨"offline", true⟩) true,
          .began (.ran ⟨"last", false⟩), .ended (.ran ⟨"last", false⟩) false], false⟩ := by
  decide

end AfterCommit

end DurableJobs
