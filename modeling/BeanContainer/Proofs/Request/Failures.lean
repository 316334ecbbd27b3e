import BeanContainer.Proofs.Heap.Blame
import BeanContainer.Proofs.Heap.Finishing
import BeanContainer.Proofs.Request.Population
import BeanContainer.Proofs.Request.Typing

/-!
# Why requests fail

If all definitions are typed, a request fails for one of a few reasons: a name or a property is
missing, no single bean or several come into question, a bean cannot be handed out as the type it
is wanted as, a bean is requested while it cannot be had, a method refuses its arguments, a cell is
filled already, or a processor or a callback fails.  None of them is that something resolved is
missing or has another type than the place that it is for.
-/

namespace BeanContainer

open Running

/-! ## Failures of single steps -/

/-- A value of the right type is rejected only if the cell was filled before. -/
theorem InjectionPoint.write_fails {point : InjectionPoint} {record : Record} {cell : Cell}
    {value : Value} {heap : Heap} {error : BeanError} (isOn : point.cell = some cell)
    (owner : cell.owner = record.type) (typed : value.type = point.type)
    (failed : point.write (.plain record) value heap = .error error) :
    error = .alreadyWired point.name ∧ (heap.read record).cells.find? cell.name ≠ none := by
  constructor
  · simp only [write, isOn, owner, typed, ne_eq, not_true_eq_false, if_false] at failed
    split at failed
    next => cases failed
    next => exact (Except.error.inj failed).symm
  · intro unset
    obtain ⟨_, done⟩ := point.write_ok isOn owner unset typed
    rw [done] at failed
    cases failed

/-- A value that is written for one of several typed fields of the bean is rejected only if the cell
of the field was filled before, or is the cell of another field as well. -/
theorem Supply.write_fails {record : Record} {points : List InjectionPoint} {supply left : Supply}
    {heap written : Heap} {error : BeanError} (inside : record.index < heap.contents.size)
    (fits : ∀ point ∈ points, ∃ cell, point.cell = some cell ∧ cell.owner = record.type)
    (ascending : points.Pairwise fun point other => point.index < other.index)
    (typed : ∀ point ∈ points, ∀ value, supply.find? point.index = some value →
      value.type = point.type)
    (failed : supply.write (.plain record) points heap = (.error error, left, written)) :
    ∃ point ∈ points, error = .alreadyWired point.name ∧ ∃ cell, point.IsOn cell ∧
      ((heap.read record).cells.find? cell ≠ none ∨
        ∃ other ∈ points, other ≠ point ∧ other.IsOn cell) := by
  induction points generalizing supply heap with
  | nil => cases failed
  | cons point points ih =>
      obtain ⟨before, ascendingLater⟩ := List.pairwise_cons.1 ascending
      have fitsLater := fun other member => fits other (List.mem_cons_of_mem point member)
      unfold write at failed
      cases supplied : supply.find? point.index with
      | none =>
          simp only [supplied] at failed
          obtain ⟨other, isPoint, isError, cell, isOn, filled⟩ := ih inside fitsLater ascendingLater
            (fun other member => typed other (List.mem_cons_of_mem _ member)) failed
          refine ⟨other, List.mem_cons_of_mem _ isPoint, isError, cell, isOn, filled.imp_right ?_⟩
          rintro ⟨third, member, differs, isOnThird⟩
          exact ⟨third, List.mem_cons_of_mem _ member, differs, isOnThird⟩
      | some value =>
          obtain ⟨cell, isOn, owner⟩ := fits point List.mem_cons_self
          have type := typed point List.mem_cons_self value supplied
          cases wrote : point.write (.plain record) value heap with
          | error fault =>
              simp only [supplied, wrote] at failed
              have isError : fault = error := Except.error.inj (congrArg Prod.fst failed)
              subst isError
              obtain ⟨isError, isSet⟩ := InjectionPoint.write_fails isOn owner type wrote
              exact ⟨point, List.mem_cons_self, isError, cell.name, ⟨cell.owner, isOn⟩, .inl isSet⟩
          | ok halfway =>
              simp only [supplied, wrote] at failed
              obtain ⟨_, same, isRecord, isOnSame, filled⟩ := InjectionPoint.write_eq_ok wrote
              cases isRecord
              rw [isOn] at isOnSame
              cases isOnSame
              have stillInside : record.index < halfway.contents.size := by
                rw [(Heap.fill?_eq_some filled).2, Heap.update_size]
                exact inside
              obtain ⟨other, isPoint, isError, name, isOnOther, reason⟩ := ih stillInside fitsLater
                ascendingLater (fun other member held found => typed other
                  (List.mem_cons_of_mem _ member) held (Table.find?_erase_eq_some_iff.1 found).2)
                failed
              refine ⟨other, List.mem_cons_of_mem _ isPoint, isError, name, isOnOther, ?_⟩
              -- If the cell was not set before this field was written, the two fields share it.
              rcases reason with isSet | ⟨third, member, differs, isOnThird⟩
              · rw [Heap.find?_of_fill? inside filled] at isSet
                split at isSet
                next isCell =>
                  subst isCell
                  refine .inr ⟨point, List.mem_cons_self, ?_, cell.owner, isOn⟩
                  rintro rfl
                  exact Nat.lt_irrefl _ (before point isPoint)
                next => exact .inl isSet
              · exact .inr ⟨third, List.mem_cons_of_mem _ member, differs, isOnThird⟩

namespace Container

/-! ## Failures of points -/

/-- Not all names were served: a request failed, or its bean cannot be handed out as the element
type. -/
theorem Serves.fails {target : BeanTarget} {names : List String} {asked : Asked} {error : BeanError}
    (serves : Serves target names asked (.error error)) :
    (∃ name, (name, .error error) ∈ asked) ∨ ∃ name handout, (name, .ok handout) ∈ asked ∧
      ¬ handout.Fits target.element ∧ error = .cast name target.element.text := by
  induction names generalizing asked with
  | nil => cases serves
  | cons name names ih =>
      cases serves with
      | failed => exact .inl ⟨name, List.mem_cons_self⟩
      | unfit isUnfit => exact .inr ⟨name, _, List.mem_cons_self, isUnfit, rfl⟩
      | later _ rest =>
          rcases ih rest with ⟨other, member⟩ | ⟨other, handout, member, isUnfit⟩
          · exact .inl ⟨other, List.mem_cons_of_mem _ member⟩
          · exact .inr ⟨other, handout, List.mem_cons_of_mem _ member, isUnfit⟩

/-- Why nothing could be resolved for the point, given what was asked on its behalf. -/
inductive Fault (registry : Registry) (properties : PropertyStore) (point : InjectionPoint)
    (asked : Asked) : BeanError → Prop
  | unread {reference : PropertyReference} {type : PropertyType} {error : PropertyError}
      (dependency : point.dependency = .property reference type)
      (failed : properties.readAs type reference.name reference.default = .error error) :
      Fault registry properties point asked (.property error)
  | undecided {error : BeanError} (names : point.names registry = .error error) :
      Fault registry properties point asked error
  | unfit {reference : BeanReference} {target : BeanTarget} {name : String} {handout : Handout}
      (dependency : point.dependency = .bean reference target)
      (answered : (name, .ok handout) ∈ asked) (unfit : ¬ handout.Fits target.element) :
      Fault registry properties point asked (.cast name target.element.text)
  | failed {name : String} {error : BeanError} (answered : (name, .error error) ∈ asked) :
      Fault registry properties point asked error

/-- Points were not all resolved because of one of them. -/
theorem Gathers.fails {registry : Registry} {properties : PropertyStore}
    {sees : Asked → Heap → Prop} {points : List InjectionPoint} {asked : Asked} {error : BeanError}
    (gathers : Gathers registry properties sees points .empty asked (.error error)) :
    ∃ point ∈ points, Fault registry properties point asked error := by
  cases gathers with
  | @stopped earlier later point own view _ findings isPoint _ fails =>
      have isOwn : ∀ entry ∈ own, entry ∈ findings.flatMap (·.asked) ++ own :=
        fun entry member => List.mem_append_right _ member
      refine ⟨point, by simp [isPoint], ?_⟩
      cases fails with
      | unread dependency failed => exact .unread dependency failed
      | undecided _ names => exact .undecided names
      | unserved dependency _ serves =>
          rcases serves.fails with ⟨name, member⟩ | ⟨name, handout, member, isUnfit, rfl⟩
          · exact .failed (isOwn _ member)
          · exact .unfit dependency (isOwn _ member) isUnfit

/-! ## Failures of requests -/

/-- The bean of the name depends on what is injected into the point. -/
def Needs (container : Container) (name : String) (point : InjectionPoint) : Prop :=
  ∃ owner definition, container.registry.Reaches name owner ∧
    container.registry.find? owner = some definition ∧
      point ∈ definition.recipe.points ++ definition.fields

end Container

/-- The cell of the point was filled by the constructor of the record, or is the cell of another
field as well. -/
def Definition.Overfills (definition : Definition) (heap : Heap) (record : Record)
    (point : InjectionPoint) : Prop :=
  point ∈ definition.fields ∧ record.index < heap.contents.size ∧ ∃ cell, point.IsOn cell ∧
    (definition.recipe.Presets (heap.read record).arguments cell ∨
      ∃ other ∈ definition.fields, other ≠ point ∧ other.IsOn cell)

namespace Container

/-- The states in which requests are made on behalf of a request for the name, by itself or by a
request for what its bean depends on. -/
inductive Inside : String → Container → Container → Prop
  | nested {name : String} {start middle : Container} (nested : Nested request name start middle) :
      Inside name start middle
  | deeper {name next : String} {start before middle : Container}
      (nested : Nested request name start before) (depends : start.registry.DependsOn name next)
      (inside : Inside next before middle) : Inside name start middle

/-- Why a request for the name, made in the first state, failed with the error and left the second
state. -/
inductive Failure (name : String) (start final : Container) : BeanError → Prop
  /-- A processor answered with the error. -/
  | answered {error : BeanError}
      (answered : start.processors.Answered error start.heap final.heap) :
      Failure name start final error
  | unknown {owner : String} (reaches : start.registry.Reaches name owner)
      (unregistered : start.registry.find? owner = none) :
      Failure name start final (.definitionNotFound owner)
  /-- A bean was requested while it could not be had. -/
  | circular {owner : String} (reaches : start.registry.Reaches name owner) :
      Failure name start final (.circular owner)
  | unread {point : InjectionPoint} {reference : PropertyReference} {type : PropertyType}
      {error : PropertyError} (needs : start.Needs name point)
      (dependency : point.dependency = .property reference type)
      (failed : start.properties.readAs type reference.name reference.default = .error error) :
      Failure name start final (.property error)
  /-- No bean or several beans come into question. -/
  | undecided {point : InjectionPoint} {error : BeanError} (needs : start.Needs name point)
      (names : point.names start.registry = .error error) : Failure name start final error
  /-- A bean that was had cannot be handed out as the type it is wanted as. -/
  | unfit {point : InjectionPoint} {reference : BeanReference} {target : BeanTarget}
      {owner : String} {handout : Handout} {middle : Container} (needs : start.Needs name point)
      (dependency : point.dependency = .bean reference target) (inside : Inside name start middle)
      (answered : (request owner middle).1 = .ok handout)
      (unfit : ¬ handout.Fits target.element) :
      Failure name start final (.cast owner target.element.text)
  /-- A method refused its arguments. -/
  | refused {owner text : String} (reaches : start.registry.Reaches name owner) :
      Failure name start final (.construction owner (.refused text))
  /-- A field was to be written whose cell was filled. -/
  | filled {owner : String} {definition : Definition} {record : Record} {point : InjectionPoint}
      (reaches : start.registry.Reaches name owner)
      (registered : start.registry.find? owner = some definition)
      (made : start.heap.Notes final.heap (.constructed owner definition (.plain record)))
      (overfills : definition.Overfills final.heap record point) :
      Failure name start final (.alreadyWired point.name)
  /-- The callback of a bean failed. -/
  | lifecycle {owner cause : String} (reaches : start.registry.Reaches name owner) :
      Failure name start final (.lifecycle owner "after_properties_set" cause)

/-- Nested requests are made with the same definitions. -/
theorem Nested.registry {name : String} {start middle : Container}
    (nested : Nested request name start middle) : middle.registry = start.registry := by
  cases nested with
  | constructing _ _ asks => exact (asks.restores request_restores).registry
  | creating _ construction _ asks =>
      exact (asks.restores request_restores).registry.trans
        (construction.restores request_restores).registry

/-- A request fails for the reason for which one fails that its bean depends on. -/
theorem Failure.inside {name next : String} {start before after final : Container}
    {error : BeanError} {fills : Nat → Prop} {adds : Event → Prop}
    (failure : Failure next before after error) (depends : start.registry.DependsOn name next)
    (nested : Nested request name start before)
    (properties : before.properties = start.properties)
    (processors : before.processors = start.processors)
    (earlier : start.heap.journal.toList <+: before.heap.journal.toList)
    (later : Heap.Extends fills adds after.heap final.heap) : Failure name start final error := by
  have registry := nested.registry
  have reached : ∀ {owner}, before.registry.Reaches next owner →
      start.registry.Reaches name owner := by
    intro owner reaches
    rw [registry] at reaches
    exact reaches.head depends
  have needed : ∀ {point}, before.Needs next point → start.Needs name point := by
    rintro point ⟨owner, definition, reaches, registered, isPoint⟩
    rw [registry] at registered
    exact ⟨owner, definition, reached reaches, registered, isPoint⟩
  cases failure with
  | answered answered =>
      rw [processors] at answered
      exact .answered ((answered.later earlier).before later.journal_isPrefix)
  | unknown reaches unregistered =>
      rw [registry] at unregistered
      exact .unknown (reached reaches) unregistered
  | circular reaches => exact .circular (reached reaches)
  | unread needs dependency failed =>
      rw [properties] at failed
      exact .unread (needed needs) dependency failed
  | undecided needs names =>
      rw [registry] at names
      exact .undecided (needed needs) names
  | unfit needs dependency inside answered unfit =>
      exact .unfit (needed needs) dependency (.deeper nested depends inside) answered unfit
  | refused reaches => exact .refused (reached reaches)
  | filled reaches registered made overfills =>
      obtain ⟨isPoint, inside, cell, isOn, reason⟩ := overfills
      rw [registry] at registered
      have stillMade := (made.later earlier).before later.journal_isPrefix
      refine .filled (reached reaches) registered stillMade
        ⟨isPoint, Nat.lt_of_lt_of_le inside later.size_le, cell, isOn, ?_⟩
      rw [later.read_arguments inside]
      exact reason
  | lifecycle reaches => exact .lifecycle (reached reaches)

section Ways

variable {name : String} {start : Container}
  (inner : ∀ other middle error, Nested request name start middle →
    (request other middle).1 = .error error →
      Failure other middle (request other middle).2 error)
include inner

/-- What was not resolved for a point of the bean makes its request fail. -/
theorem Fault.failure {begun middle final : Container} {asked : Asked} {point : InjectionPoint}
    {error : BeanError} {definition : Definition} {fills : Nat → Prop} {adds : Event → Prop}
    (fault : Fault start.registry start.properties point asked error)
    (registered : start.registry.find? name = some definition)
    (isPoint : point ∈ definition.recipe.points ++ definition.fields)
    (leads : ∀ entry ∈ asked, start.registry.DependsOn name entry.1)
    (asks : Asks request begun asked middle)
    (nested : ∀ {earlier reached}, Asks request begun earlier reached →
      Nested request name start reached)
    (properties : begun.properties = start.properties)
    (processors : begun.processors = start.processors)
    (earlier : start.heap.journal.toList <+: begun.heap.journal.toList)
    (later : Heap.Extends fills adds middle.heap final.heap) : Failure name start final error := by
  have needs : start.Needs name point := ⟨name, definition, .refl, registered, isPoint⟩
  cases fault with
  | unread dependency failed => exact .unread needs dependency failed
  | undecided names => exact .undecided needs names
  | unfit dependency member isUnfit =>
      obtain ⟨_, reached, _, _, _, asksBefore, isAnswer, _⟩ := asks.split member
      exact .unfit needs dependency (.nested (nested asksBefore)) (congrArg Prod.fst isAnswer)
        isUnfit
  | @failed next _ member =>
      obtain ⟨_, reached, after, _, _, asksBefore, isAnswer, asksLater⟩ := asks.split member
      have failed := inner next reached error (nested asksBefore) (congrArg Prod.fst isAnswer)
      rw [isAnswer] at failed
      have restores := asksBefore.restores request_restores
      have before := (asksBefore.grows request_grows).journal_isPrefix
      have extended : Heap.Extends (fun _ => True) (fun _ => True) after.heap final.heap :=
        ((asksLater.grows request_grows).mono (fun _ _ => trivial) fun _ _ => trivial).trans
          (later.mono (fun _ _ => trivial) fun _ _ => trivial)
      exact failed.inside (leads _ member) (nested asksBefore)
        (restores.properties.trans properties) (restores.processors.trans processors)
        (earlier.trans before) extended

/-- A bean whose arguments were not resolved or not taken makes its request fail. -/
theorem Spoiled.failure {definition : Definition} {middle : Container} {asked : Asked}
    {error : BeanError} (typed : definition.Typed)
    (registered : start.registry.find? name = some definition) (idle : name ∉ start.constructing)
    (asks : Asks request (start.beginConstruction name) asked middle)
    (spoiled : Spoiled start.registry start.properties definition name asked error) :
    Failure name start (middle.endConstruction name) error := by
  cases spoiled with
  | refused gathers recipe fails =>
      obtain ⟨text, rfl⟩ := typed.refused gathers recipe fails
      exact .refused .refl
  | unresolved gathers =>
      obtain ⟨point, isPoint, fault⟩ := gathers.fails
      have same : Heap.Extends (fun _ => False) (fun _ => False) middle.heap
          (middle.endConstruction name).heap := .refl _
      exact fault.failure inner registered (List.mem_append_left _ isPoint)
        (fun entry member => .inl ⟨definition, registered, gathers.leadsTo member⟩) asks
        (.constructing registered idle) rfl rfl (List.prefix_refl _) same

omit inner in
/-- A constructed bean is noted, and its record has the type of the definition. -/
theorem Construction.noted {definition : Definition} {built : Container} {raw : Bean}
    (construction : Construction request definition name start raw built) :
    start.heap.Notes built.heap (.constructed name definition raw) ∧
      ∃ record, raw = .plain record ∧ record.type = definition.type ∧
        record.index < built.heap.contents.size := by
  obtain ⟨_, record, isRecord, _, inside⟩ := construction.grows request_grows
  cases construction with
  | @intro asked middle supply arguments cells _ asks =>
      have created : middle.heap.Continues (middle.heap.create definition.type arguments cells).2 :=
        .create _ _ _ _ fun _ => not_false
      refine ⟨.later ?_ (.note _ _), _, rfl, rfl, ?_⟩
      · exact (asks.grows request_grows).journal_isPrefix.trans created.journal_isPrefix
      · cases isRecord
        exact inside

omit inner in
/-- A field of a constructed bean could not be written because its cell was filled. -/
theorem Construction.filled {definition : Definition} {built middle : Container} {record : Record}
    {asked : Asked} {supply left : Supply} {written later : Heap} {error : BeanError}
    {fills : Nat → Prop} {adds : Event → Prop} (typed : definition.Typed)
    (construction : Construction request definition name start (.plain record) built)
    (asks : Asks request ((built.noted (.entered name (.plain record))).enter name (.plain record))
      asked middle)
    {sees : Asked → Heap → Prop}
    (gathers : Gathers middle.registry middle.properties sees definition.fields .empty asked
      (.ok supply))
    (failed : supply.write (.plain record) definition.fields
      (middle.heap.note (.resolved name (.plain record))) = (.error error, left, written))
    (extended : Heap.Extends fills adds middle.heap later) :
    ∃ point, error = .alreadyWired point.name ∧ definition.Overfills later record point := by
  obtain ⟨_, _, isRecord, type, inside⟩ := construction.noted
  cases isRecord
  have asking := asks.grows_entered request_grows
  have stillInside := Nat.lt_of_lt_of_le inside asking.size_le
  have fits : ∀ point ∈ definition.fields, ∃ cell, point.cell = some cell ∧
      cell.owner = record.type := by
    intro point isPoint
    obtain ⟨_, cell, isOn, owner⟩ := typed.fields point isPoint
    exact ⟨cell, isOn, owner.trans type.symm⟩
  have typedValues : ∀ point ∈ definition.fields, ∀ value,
      supply.find? point.index = some value → value.type = point.type :=
    fun point isPoint value found =>
      (gathers.type_eq typed.ascending isPoint found).trans (typed.fields point isPoint).1.symm
  have insideNoted : record.index <
      (middle.heap.note (.resolved name (.plain record))).contents.size := stillInside
  obtain ⟨point, isPoint, isError, cell, isOn, reason⟩ :=
    Supply.write_fails insideNoted fits typed.ascending typedValues failed
  refine ⟨point, isError, isPoint, Nat.lt_of_lt_of_le stillInside extended.size_le, cell, isOn, ?_⟩
  refine reason.imp_left fun isSet => ?_
  rw [extended.read_arguments stillInside, asking.read_arguments inside]
  have same := asking.read_cells inside (Nat.not_le_of_lt inside)
  obtain ⟨value, filled⟩ := Option.ne_none_iff_exists'.1 isSet
  have preset : (built.heap.read record).cells.find? cell = some value := by
    rw [← same]
    exact filled
  exact construction.presets rfl preset

/-- A bean that was abandoned makes its request fail. -/
theorem Construction.failure {definition : Definition} {built middle : Container} {raw : Bean}
    {asked : Asked} {error : BeanError} {heap : Heap} (typed : definition.Typed)
    (registered : start.registry.find? name = some definition)
    (construction : Construction request definition name start raw built)
    (fresh : built.inCreation.find? name = none)
    (asks : Asks request ((built.noted (.entered name raw)).enter name raw) asked middle)
    {sees : Asked → Heap → Prop}
    (finishing : Finishing definition name raw sees asked middle (.error error) heap) :
    Failure name start (((middle.withHeap heap).leave name).noted (.abandoned name raw)) error := by
  have entered : Restores start (built.noted (.entered name raw)) :=
    (construction.restores request_restores).trans (.noted _ _)
  have restores := asks.restores request_restores
  have sameRegistry : middle.registry = start.registry := restores.registry.trans entered.registry
  have sameProperties : middle.properties = start.properties :=
    restores.properties.trans entered.properties
  have sameProcessors : middle.processors = start.processors :=
    restores.processors.trans entered.processors
  have growing : start.heap.Grows (built.noted (.entered name raw)).heap :=
    (construction.grows request_grows).1.trans (.note _ _)
  have wires := finishing.wires
  have abandoned : Heap.Extends raw.IsAt (fun _ => True) middle.heap
      (((middle.withHeap heap).leave name).noted (.abandoned name raw)).heap :=
    (wires.mono (fun _ => id) fun _ _ => trivial).trans (.note heap trivial)
  cases finishing with
  | unresolved gathers =>
      obtain ⟨point, isPoint, fault⟩ := gathers.fails
      rw [sameRegistry, sameProperties] at fault
      rw [sameRegistry] at gathers
      exact fault.failure inner registered (List.mem_append_right _ isPoint)
        (fun entry member => .inr ⟨definition, registered, gathers.leadsTo member⟩) asks
        (.creating registered construction fresh) entered.properties entered.processors
        growing.journal_isPrefix abandoned
  | run gathers ran =>
      obtain ⟨made, record, rfl, _⟩ := construction.noted
      have before : start.heap.journal.toList <+: middle.heap.journal.toList :=
        growing.journal_isPrefix.trans (asks.grows request_grows).journal_isPrefix
      have later : heap.journal.toList <+:
          (heap.note (.abandoned name (.plain record))).journal.toList :=
        (Heap.Grows.note heap _).journal_isPrefix
      rcases finish_fails ran with ⟨left, written, failed⟩ | answered | ⟨cause, rfl⟩
      · obtain ⟨point, rfl, overfills⟩ := construction.filled typed asks gathers failed abandoned
        have asking := asks.grows_entered request_grows
        refine .filled .refl registered (made.before ?_) overfills
        exact asking.journal_isPrefix.trans abandoned.journal_isPrefix
      · rw [sameProcessors] at answered
        exact .answered ((answered.later before).before later)
      · exact .lifecycle .refl

theorem Answering.failure {final : Container} {error : BeanError}
    (typed : ∀ owner definition, start.registry.find? owner = some definition → definition.Typed)
    (answering : Answering request name start (.error error) final) :
    Failure name start final error := by
  cases answering with
  | unknown _ unregistered => exact .unknown .refl unregistered
  | made _ registered making =>
      have isTyped := typed name _ registered
      cases making with
      | busy => exact .circular .refl
      | unconstructed idle asks spoiled => exact spoiled.failure inner isTyped registered idle asks
      | refused => exact .circular .refl
      | abandoned construction fresh asks finishing =>
          exact construction.failure inner isTyped registered fresh asks finishing

end Ways

/-- If all definitions are typed, every failure of a request has one of the reasons. -/
theorem request_fails {name : String} {start : Container} {error : BeanError}
    (typed : ∀ owner definition, start.registry.find? owner = some definition → definition.Typed)
    (failed : (request name start).1 = .error error) :
    Failure name start (request name start).2 error := by
  refine request_induct (motive := fun name start result final =>
    (∀ owner definition, start.registry.find? owner = some definition → definition.Typed) →
      ∀ error, result = .error error → Failure name start final error) ?_ name start typed error
        failed
  intro name start result final answering inner typed error isError
  subst isError
  refine answering.failure (fun other middle error nested => ?_) typed
  refine inner other middle nested ?_ error
  rw [nested.registry]
  exact typed

end Container
end BeanContainer
