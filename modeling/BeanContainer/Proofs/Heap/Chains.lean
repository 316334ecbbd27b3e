import BeanContainer.Heap
import Mathlib.Data.List.Chain
import Mathlib.Data.List.Nodup
import Mathlib.Data.Nat.Find
import Mathlib.Logic.Relation

/-!
# Beans behind beans

A search for a capability asks a bean, then what it stands in for, and so on.  Proxies are
wrapped around other beans once and for all; a record comes to stand in for another bean when
a cell of it is wired, so chains can even be closed.  A search follows no more cells than are
filled, and this finds all that any search can find.
-/

namespace BeanContainer

namespace Bean

/-- A bean in front of another one is asked first. -/
theorem capabilities_inFrontOf (bean behind : Bean) :
    (bean.inFrontOf behind).chain.map capabilities =
      bean.chain.map capabilities ++ behind.chain.map capabilities := by
  induction bean with
  | plain record => rfl
  | proxy type own inner ih => simp [inFrontOf, chain, ih, capabilities]

theorem head?_chain (bean : Bean) : bean.chain.head? = some bean := by
  cases bean <;> rfl

theorem getLast?_chain (bean : Bean) : bean.chain.getLast? = some (.plain bean.innermost) := by
  induction bean with
  | plain record => rfl
  | proxy type own inner ih =>
      rw [chain, List.getLast?_cons, ih]
      rfl

end Bean

namespace Heap

variable {α : Type}

/-! ## What is asked -/

/-- The link with its answer, if it has one. -/
def answer? (ask : Capabilities → Option α) (link : Bean) : Option (Bean × α) :=
  (ask link.capabilities).map fun answer => (link, answer)

/-- The first answer along the chain as far as the given number of cells leads. -/
def seekWithin (heap : Heap) (cells : Nat) (bean : Bean) (ask : Capabilities → Option α) :
    Option (Bean × α) :=
  (heap.chainWithin cells bean).findSome? (answer? ask)

/-- The bean or the nearest one behind it that has an answer. -/
inductive Finds (heap : Heap) (ask : Capabilities → Option α) : Bean → Bean × α → Prop
  | own {bean : Bean} {answer : α} (answers : ask bean.capabilities = some answer) :
      Finds heap ask bean (bean, answer)
  | behind {bean inner : Bean} {found : Bean × α} (silent : ask bean.capabilities = none)
      (original : heap.original? bean = some inner) (finds : Finds heap ask inner found) :
      Finds heap ask bean found

section Search

variable {heap : Heap} {ask : Capabilities → Option α} {bean : Bean} {found : Bean × α}
  {cells : Nat}

theorem head?_chainWithin (heap : Heap) (cells : Nat) (bean : Bean) :
    (heap.chainWithin cells bean).head? = some bean := by
  cases cells <;> simp [chainWithin, Bean.head?_chain]

theorem isChain_static (heap : Heap) (bean : Bean) :
    bean.chain.IsChain fun link next => heap.original? link = some next := by
  induction bean with
  | plain record => exact .singleton _
  | proxy type own inner ih =>
      rw [Bean.chain, List.isChain_cons]
      refine ⟨?_, ih⟩
      intro next isNext
      rw [Bean.head?_chain] at isNext
      exact isNext

/-- Each link of a chain stands in for the next one. -/
theorem isChain_chainWithin (heap : Heap) (cells : Nat) (bean : Bean) :
    (heap.chainWithin cells bean).IsChain fun link next => heap.original? link = some next := by
  induction cells generalizing bean with
  | zero => exact heap.isChain_static bean
  | succ cells ih =>
      rw [chainWithin, List.isChain_append]
      cases wrapped : heap.wrapped? bean.innermost with
      | none => exact ⟨heap.isChain_static bean, .nil, fun _ _ _ absent => nomatch absent⟩
      | some inner =>
          refine ⟨heap.isChain_static bean, ih inner, ?_⟩
          intro last isLast next isNext
          rw [Bean.getLast?_chain] at isLast
          rw [head?_chainWithin] at isNext
          cases isLast
          cases isNext
          exact wrapped

/-- What is found along a chain stands behind the first link, and nothing in front of it has an
answer. -/
theorem finds_of_findSome? {links : List Bean}
    (linked : links.IsChain fun link next => heap.original? link = some next)
    (isFirst : links.head? = some bean) (isFound : links.findSome? (answer? ask) = some found) :
    heap.Finds ask bean found := by
  induction links generalizing bean with
  | nil => cases isFirst
  | cons link links ih =>
      cases isFirst
      rw [List.findSome?_cons, answer?] at isFound
      cases answers : ask link.capabilities with
      | some answer =>
          rw [answers] at isFound
          cases isFound
          exact .own answers
      | none =>
          rw [answers] at isFound
          rw [List.isChain_cons] at linked
          cases next : links.head? with
          | none =>
              rw [List.head?_eq_none_iff.1 next] at isFound
              cases isFound
          | some inner => exact .behind answers (linked.1 inner next) (ih linked.2 next isFound)

theorem finds_of_seekWithin (isFound : heap.seekWithin cells bean ask = some found) :
    heap.Finds ask bean found :=
  finds_of_findSome? (heap.isChain_chainWithin cells bean) (heap.head?_chainWithin cells bean)
    isFound

/-- A search that follows more cells looks at the same beans first. -/
theorem chainWithin_isPrefix (heap : Heap) (cells : Nat) (bean : Bean) :
    heap.chainWithin cells bean <+: heap.chainWithin (cells + 1) bean := by
  induction cells generalizing bean with
  | zero => exact List.prefix_append _ _
  | succ cells ih =>
      rw [chainWithin, chainWithin, List.prefix_append_right_inj]
      cases heap.wrapped? bean.innermost with
      | none => exact List.prefix_rfl
      | some inner => exact ih inner

theorem seekWithin_mono {more : Nat} (fewer : cells ≤ more)
    (isFound : heap.seekWithin cells bean ask = some found) :
    heap.seekWithin more bean ask = some found := by
  induction fewer with
  | refl => exact isFound
  | step _ ih => exact (heap.chainWithin_isPrefix _ bean).findSome?_eq_some ih

/-- A bean that has no answer passes the question on to the bean that it is wrapped around. -/
theorem seekWithin_proxy {type : TypeName} {capabilities : Capabilities} {inner : Bean}
    (silent : ask capabilities = none) :
    heap.seekWithin cells (.proxy type capabilities inner) ask =
      heap.seekWithin cells inner ask := by
  have isChain : heap.chainWithin cells (.proxy type capabilities inner) =
      .proxy type capabilities inner :: heap.chainWithin cells inner := by
    cases cells <;> rfl
  rw [seekWithin, isChain, List.findSome?_cons, answer?]
  simp only [Bean.capabilities, silent, Option.map_none]
  rfl

theorem seekWithin_plain {record : Record} (silent : ask record.capabilities = none) :
    heap.seekWithin (cells + 1) (.plain record) ask =
      (heap.wrapped? record).bind fun inner => heap.seekWithin cells inner ask := by
  rw [seekWithin, chainWithin, Bean.chain, Bean.innermost, List.singleton_append,
    List.findSome?_cons, answer?]
  simp only [Bean.capabilities, silent, Option.map_none]
  cases heap.wrapped? record <;> rfl

theorem seekWithin_own {answer : α} (answers : ask bean.capabilities = some answer) :
    heap.seekWithin cells bean ask = some (bean, answer) := by
  obtain ⟨rest, isChain⟩ := List.head?_eq_some_iff.1 (heap.head?_chainWithin cells bean)
  rw [seekWithin, isChain, List.findSome?_cons, answer?, answers]
  rfl

/-- Whatever stands behind a bean is found if enough cells are followed. -/
theorem Finds.exists_seekWithin (finds : heap.Finds ask bean found) :
    ∃ cells, heap.seekWithin cells bean ask = some found := by
  induction finds with
  | own answers => exact ⟨0, seekWithin_own answers⟩
  | @behind bean inner found silent original _ ih =>
      obtain ⟨cells, isFound⟩ := ih
      cases bean with
      | plain record =>
          refine ⟨cells + 1, ?_⟩
          rw [original?] at original
          rw [seekWithin_plain silent, original]
          exact isFound
      | proxy type capabilities wrapped =>
          cases original
          exact ⟨cells, (seekWithin_proxy silent).trans isFound⟩

/-! ## Enough cells are followed -/

/-- The filled cells, by record and name. -/
def positions (heap : Heap) : List (Nat × String) :=
  heap.contents.toList.zipIdx.flatMap fun entry => entry.1.cells.keys.map fun cell =>
    (entry.2, cell)

theorem length_positions (heap : Heap) : heap.positions.length = heap.filled := by
  have lengths : ∀ (contents : List Contents) (first : Nat),
      ((contents.zipIdx first).flatMap fun entry => entry.1.cells.keys.map fun cell =>
        (entry.2, cell)).length =
          contents.foldr (fun contents more => contents.cells.size + more) 0 := by
    intro contents
    induction contents with
    | nil => exact fun _ => rfl
    | cons head rest ih =>
        intro first
        rw [List.zipIdx_cons, List.flatMap_cons, List.length_append, ih, List.foldr_cons,
          List.length_map, Table.keys, List.length_map, Table.size]
  exact lengths _ 0

/-- The bean in the cell at the position. -/
def beanAt? (heap : Heap) (position : Nat × String) : Option Bean :=
  ((heap.contents[position.1]?.getD {}).cells.find? position.2).bind Value.bean?

theorem mem_positions {position : Nat × String} (filled : heap.beanAt? position = some bean) :
    position ∈ heap.positions := by
  obtain ⟨value, isFilled, _⟩ := Option.bind_eq_some_iff.1 filled
  cases isRecord : heap.contents[position.1]? with
  | none => simp [isRecord] at isFilled
  | some contents =>
      rw [isRecord] at isFilled
      refine List.mem_flatMap.2 ⟨(contents, position.1), ?_, ?_⟩
      · rw [List.mk_mem_zipIdx_iff_getElem?, Array.getElem?_toList]
        exact isRecord
      · refine List.mem_map.2 ⟨position.2, Table.mem_keys_iff.2 ?_, rfl⟩
        exact Option.isSome_iff_exists.2 ⟨value, isFilled⟩

/-- The search finds the link, and none that follows fewer cells does. -/
def Nearest (heap : Heap) (ask : Capabilities → Option α) (found : Bean × α) (cells : Nat)
    (bean : Bean) : Prop :=
  heap.seekWithin cells bean ask = some found ∧
    ∀ fewer < cells, heap.seekWithin fewer bean ask ≠ some found

namespace Nearest

/-- A bean that is not found itself has no answer. -/
theorem silent (nearest : heap.Nearest ask found (cells + 1) bean) :
    ask bean.capabilities = none := by
  cases answers : ask bean.capabilities with
  | none => rfl
  | some answer =>
      have isFound := nearest.1
      rw [seekWithin_own answers, ← seekWithin_own answers] at isFound
      exact absurd isFound (nearest.2 0 (Nat.succ_pos cells))

theorem proxy {type : TypeName} {capabilities : Capabilities} {inner : Bean}
    (nearest : heap.Nearest ask found (cells + 1) (.proxy type capabilities inner)) :
    heap.Nearest ask found (cells + 1) inner := by
  have silent : ask capabilities = none := nearest.silent
  refine ⟨(seekWithin_proxy silent).symm.trans nearest.1, ?_⟩
  intro fewer less isFound
  exact nearest.2 fewer less ((seekWithin_proxy silent).trans isFound)

/-- What lies behind a record that has no answer is nearer to the bean in its cell. -/
theorem plain {record : Record} (nearest : heap.Nearest ask found (cells + 1) (.plain record)) :
    ∃ cell inner, heap.beanAt? (record.index, cell) = some inner ∧
      heap.Nearest ask found cells inner := by
  have silent : ask record.capabilities = none := nearest.silent
  have isFound := nearest.1
  rw [seekWithin_plain silent] at isFound
  obtain ⟨inner, wrapped, isInside⟩ := Option.bind_eq_some_iff.1 isFound
  obtain ⟨cell, _, isInner⟩ := Option.bind_eq_some_iff.1 wrapped
  refine ⟨cell, inner, isInner, isInside, ?_⟩
  intro fewer less isFoundBefore
  refine nearest.2 (fewer + 1) (Nat.succ_lt_succ less) ?_
  rw [seekWithin_plain silent, wrapped]
  exact isFoundBefore

/-- The cells that have to be followed differ from each other, because what is found is nearer
to the bean in each of them than to the one before. -/
theorem exists_positions (nearest : heap.Nearest ask found cells bean) :
    ∃ positions : List (Nat × String), positions.Nodup ∧ positions.length = cells ∧
      ∀ position ∈ positions, ∃ inner nearer, heap.beanAt? position = some inner ∧
        nearer < cells ∧ heap.Nearest ask found nearer inner := by
  induction cells generalizing bean with
  | zero => exact ⟨[], .nil, rfl, nofun⟩
  | succ cells ih =>
      induction bean with
      | proxy type capabilities inner inside => exact inside nearest.proxy
      | plain record =>
          obtain ⟨cell, inner, isInner, nearestInner⟩ := nearest.plain
          obtain ⟨positions, apart, length, leads⟩ := ih nearestInner
          refine ⟨(record.index, cell) :: positions, List.nodup_cons.2 ⟨?_, apart⟩,
            congrArg (· + 1) length, ?_⟩
          · intro again
            obtain ⟨other, nearer, isOther, less, nearestOther⟩ := leads _ again
            rw [isInner] at isOther
            cases isOther
            exact nearestInner.2 nearer less nearestOther.1
          · intro position member
            rcases List.mem_cons.1 member with rfl | later
            · exact ⟨inner, cells, isInner, Nat.lt_succ_self cells, nearestInner⟩
            · obtain ⟨other, nearer, isOther, less, nearestOther⟩ := leads position later
              exact ⟨other, nearer, isOther, Nat.lt_succ_of_lt less, nearestOther⟩

/-- No more cells have to be followed than are filled. -/
theorem le_filled (nearest : heap.Nearest ask found cells bean) : cells ≤ heap.filled := by
  obtain ⟨positions, apart, length, leads⟩ := nearest.exists_positions
  rw [← length, ← heap.length_positions]
  refine apart.length_le_of_subset ?_
  intro position member
  obtain ⟨inner, _, isInner, _⟩ := leads position member
  exact mem_positions isInner

end Nearest

/-- A search finds the bean or the nearest one behind it that has an answer, however many
beans are behind. -/
theorem seek_eq_some_iff : heap.seek bean ask = some found ↔ heap.Finds ask bean found := by
  constructor
  · exact fun isFound => finds_of_seekWithin isFound
  · intro finds
    classical
    have isFound := Nat.find_spec finds.exists_seekWithin
    have nearest : heap.Nearest ask found (Nat.find finds.exists_seekWithin) bean :=
      ⟨isFound, fun _ less => Nat.find_min _ less⟩
    exact seekWithin_mono nearest.le_filled isFound

/-- The second bean is behind the first one. -/
def Behind (heap : Heap) : Bean → Bean → Prop :=
  Relation.TransGen fun bean inner => heap.original? bean = some inner

/-- What is found is the bean itself or behind it. -/
theorem Finds.eq_or_behind (finds : heap.Finds ask bean found) :
    found.1 = bean ∨ heap.Behind bean found.1 := by
  induction finds with
  | own => exact .inl rfl
  | behind _ original _ ih =>
      rcases ih with same | behind
      · rw [same]
        exact .inr (.single original)
      · exact .inr (.head original behind)

end Search

/-! ## Who answers -/

section Answering

variable {heap : Heap} {ask : Capabilities → Option α} {beans : List (String × Bean)}

/-- The beans with an answer that stand under the names or behind the beans that do, each with that
name. -/
def answering (heap : Heap) (ask : Capabilities → Option α) (beans : List (String × Bean)) :
    List (String × Bean) :=
  beans.filterMap fun entry => (heap.seek entry.2 ask).map fun found => (entry.1, found.1)

theorem mem_answering_iff {name : String} {link : Bean} :
    (name, link) ∈ heap.answering ask beans ↔
      ∃ bean answer, (name, bean) ∈ beans ∧ heap.seek bean ask = some (link, answer) := by
  rw [answering, List.mem_filterMap]
  constructor
  · intro found
    obtain ⟨⟨name, bean⟩, member, isCall⟩ := found
    obtain ⟨⟨link, answer⟩, isLink, same⟩ := Option.map_eq_some_iff.1 isCall
    cases same
    exact ⟨bean, answer, member, isLink⟩
  · intro found
    obtain ⟨bean, answer, member, isLink⟩ := found
    refine ⟨(name, bean), member, ?_⟩
    rw [isLink]
    rfl

/-- No name answers twice. -/
theorem answering_nodup (distinct : (beans.map (·.1)).Nodup) :
    ((heap.answering ask beans).map (·.1)).Nodup := by
  have listed : ((heap.answering ask beans).map (·.1)).Sublist (beans.map (·.1)) := by
    clear distinct
    induction beans with
    | nil => exact .slnil
    | cons entry beans ih =>
        rw [answering, List.filterMap_cons, List.map_cons]
        cases heap.seek entry.2 ask with
        | none => exact ih.cons entry.1
        | some found => exact ih.cons_cons entry.1
  exact listed.nodup distinct

end Answering

/-! ## How beans look -/

section Outlook

variable (heap : Heap) (bean : Bean)

theorem capabilities_outlookWithin (cells : Nat) :
    (heap.outlookWithin cells bean).chain.map Bean.capabilities =
      (heap.chainWithin cells bean).map Bean.capabilities := by
  induction cells generalizing bean with
  | zero => rfl
  | succ cells ih =>
      rw [outlookWithin, chainWithin, List.map_append]
      cases heap.wrapped? bean.innermost with
      | none => simp
      | some inner => rw [Bean.capabilities_inFrontOf, ih]

/-- The priority of a bean as it looks is the first one along its chain. -/
theorem priority_outlook :
    (heap.outlook bean).priority = (heap.seek bean (·.priority)).map (·.2) := by
  have first : ∀ links : List Bean,
      (links.findSome? (answer? fun capabilities => capabilities.priority)).map (·.2) =
        (links.map Bean.capabilities).findSome? (·.priority) := by
    intro links
    induction links with
    | nil => rfl
    | cons link links ih =>
        rw [List.findSome?_cons, List.map_cons, List.findSome?_cons, answer?]
        cases link.capabilities.priority with
        | none => exact ih
        | some priority => rfl
  rw [Bean.priority]
  exact (first _).trans ((congrArg _ (heap.capabilities_outlookWithin bean _)).trans (first _).symm)

/-- A bean ranks by the nearest priority along its chain. -/
theorem priority_outlook_eq_some_iff {priority : Int} :
    (heap.outlook bean).priority = some priority ↔
      ∃ link, heap.Finds (·.priority) bean (link, priority) := by
  rw [priority_outlook, Option.map_eq_some_iff]
  simp only [seek_eq_some_iff, Prod.exists, exists_eq_right]

end Outlook

/-! ## What does not change chains -/

/-- Records stand in for the same beans in both heaps. -/
def SameChains (one other : Heap) : Prop :=
  ∀ record, other.wrapped? record = one.wrapped? record

namespace SameChains

variable {one other third : Heap}

theorem refl (heap : Heap) : SameChains heap heap := fun _ => rfl

theorem symm (same : SameChains one other) : SameChains other one :=
  fun record => (same record).symm

theorem trans (first : SameChains one other) (second : SameChains other third) :
    SameChains one third :=
  fun record => (second record).trans (first record)

/-- What records stand in for depends on their cells alone. -/
theorem of_cells (cells : ∀ record, (other.read record).cells = (one.read record).cells) :
    SameChains one other := by
  intro record
  rw [wrapped?, wrapped?, cells]

theorem note (heap : Heap) (event : Event) : SameChains heap (heap.note event) := fun _ => rfl

/-- What a record was told does not change chains. -/
theorem update (heap : Heap) (record : Record) {change : Contents → Contents}
    (kept : ∀ contents, (change contents).cells = contents.cells) :
    SameChains heap (heap.update record change) := by
  refine of_cells fun other => ?_
  rw [Heap.read, Heap.read, Heap.update, Array.getElem?_modify]
  split
  · cases heap.contents[other.index]? with
    | none => rfl
    | some contents => exact kept contents
  · rfl

/-- A new record without cells does not change chains. -/
theorem create (heap : Heap) (type : TypeName) (arguments : List Value) :
    SameChains heap (heap.create type arguments []).2 := by
  refine of_cells fun record => ?_
  have contents : (heap.create type arguments []).2.contents =
      heap.contents.push { arguments, cells := Table.ofList [] } := rfl
  rw [Heap.read, Heap.read, contents, Array.getElem?_push]
  split
  next isNew =>
    rw [isNew, Array.getElem?_eq_none (Nat.le_refl _)]
    rfl
  next => rfl

theorem finds {ask : Capabilities → Option α} {bean : Bean} {found : Bean × α}
    (same : SameChains one other) (finds : one.Finds ask bean found) :
    other.Finds ask bean found := by
  induction finds with
  | own answers => exact .own answers
  | @behind bean inner found silent original _ ih =>
      refine .behind silent ?_ ih
      cases bean with
      | plain record => exact (same record).trans original
      | proxy type capabilities wrapped => exact original

theorem seek (same : SameChains one other) (bean : Bean) (ask : Capabilities → Option α) :
    other.seek bean ask = one.seek bean ask := by
  apply Option.ext
  intro found
  rw [seek_eq_some_iff, seek_eq_some_iff]
  exact ⟨same.symm.finds, same.finds⟩

end SameChains
end Heap
end BeanContainer
