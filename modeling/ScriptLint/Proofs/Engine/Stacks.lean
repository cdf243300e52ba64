import Mathlib.Data.Fintype.Card
import Mathlib.Logic.Function.Basic
import ScriptLint.Proofs.Engine.Dispatch

/-!
# Registries as maps to stacks of handlers

Seen from outside, a table of handlers is a map from kinds to stacks of handlers that run from the
front to the back: registering replaces a stack, chaining puts a handler on top of it, and laying
one table over another takes whole stacks. Here the operations are told once for whatever keeps
handlers, and tables are compared with such maps over runs of any length on any number of slots.

A handler may be anything that acts in a monad when it is given the table it is called from, a node
and the node's parent. The monad stands for the sink it writes to and for whatever else it does,
also for not coming back. The handlers of the engine are one such case: they add to the findings so
far.
-/

namespace ScriptLint

instance : Fintype Kind where
  elems := Kind.all.toFinset
  complete kind := List.mem_toFinset.mpr kind.mem_all

/-- One or more handlers, in the order in which they run. -/
structure HandlerStack (H : Type) where
  front : H
  behind : List H

namespace HandlerStack

variable {H : Type}

def handlers (stack : HandlerStack H) : List H :=
  stack.front :: stack.behind

def single (handler : H) : HandlerStack H :=
  ⟨handler, []⟩

def push (stack : HandlerStack H) (handler : H) : HandlerStack H :=
  ⟨handler, stack.handlers⟩

variable [Sequential H]

/-- A handler put together with those behind it. -/
def join (front : H) : List H → H
  | [] => front
  | next :: behind => Sequential.andThen front (join next behind)

/-- The one handler that does what all handlers of the stack do, one after the other. -/
def joined (stack : HandlerStack H) : H :=
  join stack.front stack.behind

theorem joined_single (handler : H) : (single handler).joined = handler := rfl

theorem joined_push (stack : HandlerStack H) (handler : H) :
    (stack.push handler).joined = Sequential.andThen handler stack.joined := rfl

end HandlerStack

/-- The stack of each kind that has handlers. -/
abbrev HandlerMap (H : Type) := Kind → Option (HandlerStack H)

namespace HandlerMap

variable {H : Type}

def empty : HandlerMap H := fun _ => none

/-- The last pair for a kind decides its stack. -/
def register (map : HandlerMap H) (pairs : List (Kind × H)) : HandlerMap H := fun kind =>
  match pairs.reverse.find? (·.1 = kind) with
  | some pair => some (.single pair.2)
  | none => map kind

def insert (map : HandlerMap H) (kind : Kind) (handler : H) : HandlerMap H :=
  Function.update map kind (some (.single handler))

def chain (map : HandlerMap H) (kind : Kind) (handler : H) : HandlerMap H :=
  Function.update map kind <| some <|
    match map kind with
    | some stack => stack.push handler
    | none => .single handler

def merged (map layer : HandlerMap H) : HandlerMap H := fun kind =>
  match layer kind with
  | some stack => some stack
  | none => map kind

def remove (map : HandlerMap H) (kind : Kind) : HandlerMap H :=
  Function.update map kind none

def builtin (walk noop : H) : HandlerMap H := fun kind =>
  if kind ∈ Registry.structural then some (.single walk)
  else if kind ∈ Registry.stubs then some (.single noop)
  else none

/-- The kinds that have a stack. -/
def domain (map : HandlerMap H) : Finset Kind :=
  Finset.univ.filter fun kind => (map kind).isSome

/-- The handlers of a kind from the front to the back. -/
def handlers (map : HandlerMap H) (kind : Kind) : List H :=
  ((map kind).map HandlerStack.handlers).getD []

/-- The table in which each kind has the handler that its stack acts as. -/
def table [Sequential H] (map : HandlerMap H) : HandlerTable H where
  handler? kind := (map kind).map HandlerStack.joined

end HandlerMap

namespace HandlerTable

variable {H : Type}

theorem ext_handler? {table other : HandlerTable H}
    (same : ∀ kind, table.handler? kind = other.handler? kind) : table = other :=
  congrArg HandlerTable.mk (funext same)

theorem handler?_register (table : HandlerTable H) (pairs : List (Kind × H)) (asked : Kind) :
    (table.register pairs).handler? asked =
      ((pairs.reverse.find? (·.1 = asked)).map Prod.snd).or (table.handler? asked) := by
  induction pairs generalizing table with
  | nil => rfl
  | cons pair pairs ih =>
    have inserted : table.register (pair :: pairs) =
        (table.insert pair.1 pair.2).register pairs := rfl
    rw [inserted, ih, insert, List.reverse_cons, List.find?_append]
    cases pairs.reverse.find? (·.1 = asked) with
    | some later => rfl
    | none => by_cases same : pair.1 = asked <;> simp [same, Ne.symm]

end HandlerTable

namespace HandlerMap

variable {H : Type} [Sequential H] (map layer : HandlerMap H) (kind : Kind) (handler : H)

theorem table_empty : (empty : HandlerMap H).table = HandlerTable.empty := rfl

theorem table_register (pairs : List (Kind × H)) :
    (map.register pairs).table = map.table.register pairs := by
  refine HandlerTable.ext_handler? fun asked => ?_
  rw [HandlerTable.handler?_register]
  simp only [table, register]
  cases pairs.reverse.find? (·.1 = asked) with
  | some pair => simp [HandlerStack.joined_single]
  | none => rfl

theorem table_insert :
    (map.insert kind handler).table = map.table.insert kind handler := by
  refine HandlerTable.ext_handler? fun asked => ?_
  by_cases same : asked = kind
  · simp [table, insert, HandlerTable.insert, same, HandlerStack.joined_single]
  · simp [table, insert, HandlerTable.insert, same]

theorem table_chain :
    (map.chain kind handler).table = map.table.chain kind handler := by
  refine HandlerTable.ext_handler? fun asked => ?_
  by_cases same : asked = kind
  · subst same
    cases known : map asked with
    | some stack =>
      simp [table, chain, HandlerTable.chain, HandlerTable.insert, known,
        HandlerStack.joined_push]
    | none =>
      simp [table, chain, HandlerTable.chain, HandlerTable.insert, known,
        HandlerStack.joined_single]
  · simp [table, chain, HandlerTable.chain, HandlerTable.insert, same]

theorem table_merged :
    (map.merged layer).table = map.table.merged layer.table := by
  refine HandlerTable.ext_handler? fun asked => ?_
  cases known : layer asked <;> simp [table, merged, HandlerTable.merged, known]

theorem table_remove : (map.remove kind).table = map.table.remove kind := by
  refine HandlerTable.ext_handler? fun asked => ?_
  by_cases same : asked = kind <;> simp [table, remove, HandlerTable.remove, same]

omit map layer kind handler in
theorem table_builtin (walk noop : H) : (builtin walk noop).table = .builtin walk noop := by
  refine HandlerTable.ext_handler? fun asked => ?_
  rw [HandlerTable.handler?_builtin]
  simp only [table, builtin]
  split_ifs <;> rfl

end HandlerMap

/-- What can be done with something that keeps handlers by kind. -/
structure HandlerInterface (H α : Type) where
  empty : α
  builtin : α
  register : α → List (Kind × H) → α
  insert : α → Kind → H → α
  chain : α → Kind → H → α
  merged : α → α → α
  remove : α → Kind → α

def HandlerTable.interface {H : Type} [Sequential H] (walk noop : H) :
    HandlerInterface H (HandlerTable H) :=
  { empty, builtin := builtin walk noop, register, insert, chain, merged, remove }

def HandlerMap.interface {H : Type} (walk noop : H) : HandlerInterface H (HandlerMap H) :=
  { empty, builtin := builtin walk noop, register, insert, chain, merged, remove }

/-- One operation on tables of handlers that are kept in slots. -/
inductive RegistryOperation (H Slot : Type) where
  | empty (target : Slot)
  | builtin (target : Slot)
  | register (target : Slot) (pairs : List (Kind × H))
  | insert (target : Slot) (kind : Kind) (handler : H)
  | chain (target : Slot) (kind : Kind) (handler : H)
  | merge (target base layer : Slot)
  | remove (target : Slot) (kind : Kind)
  | copy (target source : Slot)

namespace RegistryOperation

variable {H Slot : Type}

/-- The slot that the outcome goes to. -/
def target : RegistryOperation H Slot → Slot
  | .empty target | .builtin target | .register target _ | .insert target _ _
  | .chain target _ _ | .merge target _ _ | .remove target _ | .copy target _ => target

/-- What the operation puts into its target. -/
def outcome {α : Type} (interface : HandlerInterface H α) (slots : Slot → α) :
    RegistryOperation H Slot → α
  | .empty _ => interface.empty
  | .builtin _ => interface.builtin
  | .register target pairs => interface.register (slots target) pairs
  | .insert target kind handler => interface.insert (slots target) kind handler
  | .chain target kind handler => interface.chain (slots target) kind handler
  | .merge _ base layer => interface.merged (slots base) (slots layer)
  | .remove target kind => interface.remove (slots target) kind
  | .copy _ source => slots source

end RegistryOperation

namespace HandlerInterface

variable {H α Slot : Type} [DecidableEq Slot] (interface : HandlerInterface H α)

def apply (slots : Slot → α) (operation : RegistryOperation H Slot) : Slot → α :=
  Function.update slots operation.target (operation.outcome interface slots)

/-- The slots after some operations. At first nothing is kept in any of them. -/
def after (operations : List (RegistryOperation H Slot)) : Slot → α :=
  operations.foldl interface.apply fun _ => interface.empty

theorem after_append_singleton (operations : List (RegistryOperation H Slot))
    (operation : RegistryOperation H Slot) :
    interface.after (operations ++ [operation]) =
      interface.apply (interface.after operations) operation := by
  simp [after]

/-- One more operation changes its target alone. -/
theorem after_append_singleton_of_ne (operations : List (RegistryOperation H Slot))
    {operation : RegistryOperation H Slot} {slot : Slot} (apart : slot ≠ operation.target) :
    interface.after (operations ++ [operation]) slot = interface.after operations slot := by
  rw [after_append_singleton]
  exact Function.update_of_ne apart _ _

end HandlerInterface

namespace HandlerTable

variable {H Slot : Type} [Sequential H] [DecidableEq Slot] (walk noop : H)

omit [DecidableEq Slot] in
theorem outcome_table (slots : Slot → HandlerMap H) (operation : RegistryOperation H Slot) :
    (operation.outcome (HandlerMap.interface walk noop) slots).table =
      operation.outcome (interface walk noop) fun slot => (slots slot).table := by
  cases operation with
  | empty target => exact HandlerMap.table_empty
  | builtin target => exact HandlerMap.table_builtin walk noop
  | register target pairs => exact HandlerMap.table_register _ _
  | insert target kind handler => exact HandlerMap.table_insert _ _ _
  | chain target kind handler => exact HandlerMap.table_chain _ _ _
  | merge target base layer => exact HandlerMap.table_merged _ _
  | remove target kind => exact HandlerMap.table_remove _ _
  | copy target source => rfl

/-- One operation keeps the slots of tables in step with the slots of maps. -/
theorem apply_table (slots : Slot → HandlerMap H) (operation : RegistryOperation H Slot) :
    (interface walk noop).apply (fun slot => (slots slot).table) operation =
      fun slot => ((HandlerMap.interface walk noop).apply slots operation slot).table := by
  funext slot
  by_cases hit : slot = operation.target
  · subst hit
    simp [HandlerInterface.apply, outcome_table]
  · simp [HandlerInterface.apply, hit]

theorem after_table (operations : List (RegistryOperation H Slot)) :
    (interface walk noop).after operations =
      fun slot => ((HandlerMap.interface walk noop).after operations slot).table := by
  induction operations using List.reverseRecOn with
  | nil => rfl
  | append_singleton operations operation ih =>
    rw [HandlerInterface.after_append_singleton, HandlerInterface.after_append_singleton, ih,
      apply_table]

end HandlerTable

/-- What handlers do in a monad: each is given the table it is called from, a node and the parent
that the node was reached from. Of two that are put together the second acts after the first, on the
same. -/
structure Acting (m : Type → Type) [Monad m] (H : Type) [Sequential H] where
  act : H → HandlerTable H → Node → Option Node → m Unit
  act_andThen : ∀ first second table node parent,
    act (Sequential.andThen first second) table node parent = do
      act first table node parent
      act second table node parent

/-- Visiting a node: the handler of its kind acts, and without one nothing is done. -/
def HandlerTable.dispatch {m : Type → Type} [Monad m] {H : Type} [Sequential H]
    (table : HandlerTable H) (acting : Acting m H) (node : Node) (parent : Option Node) : m Unit :=
  match table.handler? node.kind with
  | some handler => acting.act handler table node parent
  | none => pure ()

section Dispatch

variable {m : Type → Type} [Monad m] [LawfulMonad m] {H : Type} [Sequential H]
  (acting : Acting m H)

/-- Handlers that are put together act in turn. -/
theorem Acting.act_join (front : H) (behind : List H) (table : HandlerTable H) (node : Node)
    (parent : Option Node) :
    acting.act (HandlerStack.join front behind) table node parent =
      (front :: behind).forM fun handler => acting.act handler table node parent := by
  induction behind generalizing front with
  | nil => simp [HandlerStack.join]
  | cons next behind ih =>
    rw [HandlerStack.join, acting.act_andThen, ih]
    rfl

theorem HandlerMap.dispatch_table (map : HandlerMap H) (node : Node) (parent : Option Node) :
    map.table.dispatch acting node parent =
      (map.handlers node.kind).forM fun handler => acting.act handler map.table node parent := by
  cases known : map node.kind with
  | some stack =>
    simp only [HandlerTable.dispatch, HandlerMap.table, HandlerMap.handlers, known,
      Option.map_some, Option.getD_some]
    exact acting.act_join ..
  | none => simp [HandlerTable.dispatch, HandlerMap.table, HandlerMap.handlers, known]

end Dispatch

/-- What a table that holds the stacks of a map does, and what it says of itself. -/
structure HandlerTable.Shows {H : Type} [Sequential H] (table : HandlerTable H)
    (map : HandlerMap H) : Prop where
  /-- The handlers of a node's kind act once each from the front to the back, all of them with this
  table, on this node and with this parent, and each after the one before it. -/
  dispatch : ∀ {m : Type → Type} [Monad m] [LawfulMonad m] (acting : Acting m H) node parent,
    table.dispatch acting node parent =
      (map.handlers node.kind).forM fun handler => acting.act handler table node parent
  handler? : ∀ kind, table.handler? kind = (map kind).map HandlerStack.joined
  contains : ∀ kind, table.contains kind ↔ kind ∈ map.domain
  size : table.size = map.domain.card
  mem_kinds : ∀ kind, kind ∈ table.kinds ↔ kind ∈ map.domain
  kinds_sorted : table.kinds.Pairwise fun kind later => kind.ctorIdx < later.ctorIdx

theorem Kind.pairwise_all : all.Pairwise fun kind later => kind.ctorIdx < later.ctorIdx := by
  decide

namespace HandlerMap

variable {H : Type} [Sequential H] (map : HandlerMap H)

theorem contains_table (kind : Kind) : map.table.contains kind ↔ kind ∈ map.domain := by
  simp [HandlerTable.contains, table, domain]

theorem mem_kinds_table (kind : Kind) : kind ∈ map.table.kinds ↔ kind ∈ map.domain := by
  simp [HandlerTable.kinds, kind.mem_all, contains_table]

theorem shows_table : map.table.Shows map where
  dispatch acting := map.dispatch_table acting
  handler? _ := rfl
  contains := map.contains_table
  size := by
    have distinct : map.table.kinds.Nodup := Kind.nodup_all.filter _
    have listed : map.table.kinds.toFinset = map.domain := by
      ext kind
      rw [List.mem_toFinset, mem_kinds_table]
    rw [HandlerTable.size, ← listed, List.toFinset_card_of_nodup distinct]
  mem_kinds := map.mem_kinds_table
  kinds_sorted := Kind.pairwise_all.filter _

end HandlerMap

theorem HandlerTable.shows_after {H Slot : Type} [Sequential H] [DecidableEq Slot] (walk noop : H)
    (operations : List (RegistryOperation H Slot)) (slot : Slot) :
    ((interface walk noop).after operations slot).Shows
      ((HandlerMap.interface walk noop).after operations slot) := by
  rw [after_table]
  exact HandlerMap.shows_table _

/-- A stack of the engine's handlers acts as the list of what all of them do. -/
theorem HandlerStack.joined_eq_flatMap (stack : HandlerStack Handler) :
    stack.joined = fun node parent => stack.handlers.flatMap fun handler => handler node parent := by
  obtain ⟨front, behind⟩ := stack
  induction behind generalizing front with
  | nil =>
    funext node parent
    simp [joined, join, handlers]
  | cons next behind ih =>
    funext node parent
    calc joined ⟨front, next :: behind⟩ node parent
        = front node parent ++ joined ⟨next, behind⟩ node parent := rfl
      _ = _ := by
        rw [ih]
        rfl

/-- The handlers of the engine add what they report to the findings so far. -/
def Handler.acting : Acting (StateM (List Finding)) Handler where
  act handler registry node parent :=
    modify (· ++ Registry.perform registry (handler node parent))
  act_andThen first second registry node parent := by
    funext found
    rw [andThen_apply, Registry.perform_append]
    exact congrArg (Prod.mk ()) (List.append_assoc found _ _).symm

namespace Registry

def interface : HandlerInterface Handler Registry :=
  HandlerTable.interface Handler.walk Handler.noop

theorem dispatch_acting (registry : Registry) (node : Node) (parent : Option Node) :
    registry.dispatch Handler.acting node parent = modify (· ++ registry.visit node parent) := by
  rw [HandlerTable.dispatch, visit_eq]
  cases registry.handler? node.kind with
  | some handler => rfl
  | none =>
    funext found
    exact congrArg (Prod.mk ()) (List.append_nil found).symm

/-- What holds of every table, and what it comes to for the engine's handlers and the findings of a
visit. -/
structure Shows (registry : Registry) (map : HandlerMap Handler) : Prop
    extends HandlerTable.Shows registry map where
  handler?_eq : ∀ kind, registry.handler? kind = (map kind).map fun stack node parent =>
    stack.handlers.flatMap fun handler => handler node parent
  /-- The handlers of a node's kind run once each from the front to the back, all of them with this
  registry, on this node and with this parent, and each adds to what is found before it. -/
  visit : ∀ node parent found,
    found ++ registry.visit node parent =
      (map.handlers node.kind).foldl
        (fun found handler => found ++ registry.perform (handler node parent)) found

/-- The findings after some handlers acted one after the other. -/
theorem run_forM_acting (handlers : List Handler) (registry : Registry) (node : Node)
    (parent : Option Node) (found : List Finding) :
    (handlers.forM fun handler => Handler.acting.act handler registry node parent).run found =
      ((), handlers.foldl
        (fun found handler => found ++ registry.perform (handler node parent)) found) := by
  induction handlers generalizing found with
  | nil => rfl
  | cons handler handlers ih => exact ih (found ++ registry.perform (handler node parent))

theorem Shows.of_table {registry : Registry} {map : HandlerMap Handler}
    (shows : HandlerTable.Shows registry map) : registry.Shows map where
  toShows := shows
  handler?_eq kind := by
    rw [shows.handler? kind]
    cases map kind with
    | some stack => exact congrArg some stack.joined_eq_flatMap
    | none => rfl
  visit node parent found := by
    calc found ++ registry.visit node parent
        = ((registry.dispatch Handler.acting node parent).run found).2 := by
          rw [dispatch_acting]
          rfl
      _ = _ := by rw [shows.dispatch, run_forM_acting]

end Registry

/-- After any operations every table shows the map that the same operations give, whatever its
handlers are, and an operation leaves every table but its target as it was. For registries this
says as well what a visit finds. -/
theorem Registry.after_shows {Slot : Type} [DecidableEq Slot] :
    (∀ {H : Type} [Sequential H] (walk noop : H) (operations : List (RegistryOperation H Slot)),
      (∀ slot, ((HandlerTable.interface walk noop).after operations slot).Shows
        ((HandlerMap.interface walk noop).after operations slot)) ∧
      ∀ operation slot, slot ≠ RegistryOperation.target operation →
        (HandlerTable.interface walk noop).after (operations ++ [operation]) slot =
          (HandlerTable.interface walk noop).after operations slot) ∧
    ∀ (operations : List (RegistryOperation Handler Slot)) slot,
      Registry.Shows (interface.after operations slot)
        ((HandlerMap.interface .walk .noop).after operations slot) := by
  refine ⟨fun walk noop operations => ⟨HandlerTable.shows_after walk noop operations, ?_⟩, ?_⟩
  · exact fun operation slot apart =>
      (HandlerTable.interface walk noop).after_append_singleton_of_ne operations apart
  · exact fun operations slot => .of_table (HandlerTable.shows_after _ _ operations slot)

end ScriptLint
