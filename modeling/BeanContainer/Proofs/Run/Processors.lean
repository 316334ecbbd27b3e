import BeanContainer.Proofs.Run.Effects
import Mathlib.Data.List.Dedup

/-!
# The processors of a container

Adding a shared processor again moves it to the end of the chain.  So a chain holds each shared
processor once, where it was last added, and a processor that was handed over for each time that
one was.  The built-in processor of a container was there before all others and stays the first.
-/

namespace BeanContainer

namespace Link

/-- The link takes the place of the earlier one: both are the same shared processor. -/
def replaces (link earlier : Link) : Bool :=
  match link with
  | .shared processor => earlier.isShared processor.id
  | .awareness _ | .owned _ => false

/-- The links in their order, without those that a later one takes the place of. -/
def latest : List Link → List Link
  | [] => []
  | link :: later => if later.any (·.replaces link) then latest later else link :: latest later

/-- One more link takes the place of an earlier one and stands at the end. -/
theorem latest_concat (links : List Link) (last : Link) :
    latest (links ++ [last]) = (latest links).filter (fun link => !last.replaces link) ++ [last] := by
  induction links with
  | nil => rfl
  | cons link links ih =>
      rw [List.cons_append, latest, latest, ih, List.any_append]
      cases later : links.any (·.replaces link) with
      | true => rfl
      | false =>
          cases isLast : last.replaces link with
          | true => simp [isLast]
          | false => simp [isLast]

/-- Nothing takes the place of the built-in processor. -/
theorem latest_awareness (container : String) (links : List Link) :
    latest (.awareness container :: links) = .awareness container :: latest links := by
  have stays : (links.any fun link => link.replaces (.awareness container)) = false := by
    rw [List.any_eq_false]
    intro link _
    cases link with
    | awareness _ => nofun
    | shared _ => nofun
    | owned _ => nofun
  rw [latest, stays]
  rfl

theorem mem_of_mem_latest {links : List Link} {link : Link} (member : link ∈ latest links) :
    link ∈ links := by
  induction links with
  | nil => exact member
  | cons first links ih =>
      rw [latest] at member
      split at member
      next => exact List.mem_cons_of_mem _ (ih member)
      next =>
        rcases List.mem_cons.1 member with isFirst | later
        · rw [isFirst]
          exact List.mem_cons_self
        · exact List.mem_cons_of_mem _ (ih later)

end Link

namespace Chain

/-- The identities of the processors in the order of their turns, without the built-in one. -/
def ids (chain : Chain) : List String := (chain.links.filterMap Link.processor?).map (·.id)

/-- A chain of the latest links stays one if a shared processor is added. -/
theorem links_add {chain : Chain} {links : List Link} (isLatest : chain.links = Link.latest links)
    (processor : Processor) :
    (chain.add processor).links = Link.latest (links ++ [.shared processor]) := by
  rw [Link.latest_concat, ← isLatest]
  rfl

/-- A chain of the latest links stays one if a processor is handed over. -/
theorem links_addOwned {chain : Chain} {links : List Link}
    (isLatest : chain.links = Link.latest links) (processor : Processor) :
    (chain.addOwned processor).links = Link.latest (links ++ [.owned processor]) := by
  have nothing : (chain.links.filter fun link => !(Link.owned processor).replaces link) =
      chain.links := List.filter_eq_self.2 fun _ _ => rfl
  rw [Link.latest_concat, ← isLatest, nothing]
  rfl

/-- A chain of the latest links stays one if shared processors are added one after the other. -/
theorem links_foldl_add {chain : Chain} {links : List Link}
    (isLatest : chain.links = Link.latest links) (processors : List Processor) :
    (processors.foldl add chain).links = Link.latest (links ++ processors.map .shared) := by
  induction processors generalizing chain links with
  | nil => simpa using isLatest
  | cons processor processors ih =>
      rw [List.foldl_cons, ih (links_add isLatest processor), List.append_assoc]
      rfl

/-- Shared processors stand in a chain where they were last added. -/
theorem links_ofList (initial added : List Processor) :
    (added.foldl add (ofList initial)).links =
      Link.latest ((initial ++ added).map .shared) := by
  have nothing : (({} : Chain)).links = Link.latest [] := rfl
  rw [ofList, ← List.foldl_append]
  exact links_foldl_add nothing (initial ++ added)

/-- Of equal identities the last one stays. -/
theorem ids_latest (processors : List Processor) :
    (Chain.mk (Link.latest (processors.map .shared))).ids =
      (processors.map (·.id)).dedup := by
  induction processors with
  | nil => rfl
  | cons processor processors ih =>
      have again : ((processors.map Link.shared).any fun link =>
          link.replaces (.shared processor)) = true ↔
            processor.id ∈ processors.map (·.id) := by
        rw [List.any_map, List.any_eq_true, List.mem_map]
        constructor
        · intro found
          obtain ⟨other, member, same⟩ := found
          exact ⟨other, member, (of_decide_eq_true same).symm⟩
        · intro found
          obtain ⟨other, member, same⟩ := found
          exact ⟨other, member, decide_eq_true same.symm⟩
      rw [List.map_cons, List.map_cons, Link.latest]
      split
      next later => rw [List.dedup_cons_of_mem (again.1 later), ih]
      next never =>
        rw [List.dedup_cons_of_notMem fun member => never (again.2 member), ← ih]
        rfl

end Chain

/-! ## Operations that add processors -/

namespace Operation

/-- The link that the operation adds to the chain. -/
def addition? : Operation → Option Link
  | .addProcessor processor => some (.shared processor)
  | .addOwnedProcessor processor => some (.owned processor)
  | _ => none

/-- A chain of the latest links stays one over every operation. -/
theorem perform_links (operation : Operation) {container : Container} {links : List Link}
    (isLatest : container.processors.links = Link.latest links) :
    (operation.perform container).processors.links =
      Link.latest (links ++ operation.addition?.toList) := by
  have kept : ∀ {after : Container}, after.processors = container.processors →
      after.processors.links = Link.latest (links ++ []) := by
    intro after same
    rw [same, List.append_nil]
    exact isLatest
  have asked : ∀ {asked final}, Container.Asks Container.request container asked final →
      final.processors = container.processors :=
    fun asks => (asks.restores Container.request_restores).processors
  cases operation with
  | register name declaration =>
      obtain ⟨_, performed⟩ := perform_register name declaration container
      rw [performed]
      exact kept rfl
  | remove name =>
      obtain ⟨_, performed⟩ := perform_remove name container
      rw [performed]
      exact kept rfl
  | registerSingleton name bean =>
      obtain ⟨_, _, performed⟩ := perform_registerSingleton name bean container
      rw [performed]
      exact kept rfl
  | arrange visiting => exact kept rfl
  | addProcessor processor => exact Chain.links_add isLatest processor
  | addOwnedProcessor processor => exact Chain.links_addOwned isLatest processor
  | registerScope name scope =>
      obtain ⟨_, performed⟩ := perform_registerScope name scope container
      rw [performed]
      exact kept rfl
  | setProperty key document => exact kept rfl
  | request name => exact kept (asked (.cons rfl .nil))
  | requestAs name target => exact kept (asked (Container.requestAs_asks name target container))
  | preInstantiate limit =>
      have ending := @Container.preInstantiate_asks (fun _ => True) (fun _ => trivial) limit
        container
      obtain ⟨_, middle, heap, asks, _, ends⟩ := ending
      have same : middle.processors = container.processors := asked asks
      apply kept
      rw [perform, ends]
      exact same
  | destroy => exact kept rfl
  | create type arguments cells => exact kept rfl
  | setBehaviour type behaviour => exact kept rfl

end Operation

namespace Container

/-- After every run the built-in processor comes first, and after it the processors that were
added, each where it was last added. -/
theorem run_links (properties : PropertyStore) (operations : List Operation) :
    ((new properties).run operations).processors.links =
      .awareness busyText :: Link.latest (operations.filterMap Operation.addition?) := by
  have performed : ∀ (container : Container) (links : List Link),
      container.processors.links = Link.latest links →
        (container.run operations).processors.links =
          Link.latest (links ++ operations.filterMap Operation.addition?) := by
    induction operations with
    | nil =>
        intro container links isLatest
        rw [List.filterMap_nil, List.append_nil]
        exact isLatest
    | cons operation operations ih =>
        intro container links isLatest
        have isAdded : (operation :: operations).filterMap Operation.addition? =
            operation.addition?.toList ++ operations.filterMap Operation.addition? := by
          rw [List.filterMap_cons]
          cases operation.addition? with
          | none => rfl
          | some link => rfl
        rw [isAdded, ← List.append_assoc]
        exact ih _ _ (operation.perform_links isLatest)
  have first := performed (new properties) [.awareness busyText] rfl
  rw [List.singleton_append, Link.latest_awareness] at first
  exact first

end Container
end BeanContainer
