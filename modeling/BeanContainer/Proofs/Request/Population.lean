import BeanContainer.Proofs.Heap.Filling
import BeanContainer.Proofs.Request.Depth
import BeanContainer.Proofs.Request.Fields
import BeanContainer.Proofs.Request.Growth

/-!
# What the fields of new beans hold

Whatever requests are nested in a request, each bean that is finished on its way holds in each
of its declared fields what was resolved for this field while the bean was in creation.
-/

namespace BeanContainer
namespace Container

/-- The bean was made and finished for the name between the two heaps.  Each of its declared
fields holds what the field received while the bean was in creation, if the fields lie in cells
of their own which the constructor left unset. -/
inductive Populated (registry : Registry) (properties : PropertyStore) (before after : Heap)
    (name : String) (bean : Bean) : Prop
  | intro {definition : Definition} {record : Record} {contents : Contents}
      {built resolved : Container}
      (registered : registry.find? name = some definition)
      (isRecord : bean = .plain record)
      (isNew : before.contents.size ≤ record.index)
      (isFound : after.contents[record.index]? = some contents)
      (entered : before.journal.toList <+: built.heap.journal.toList)
      (finished : (resolved.noted (.resolved name bean)).heap.journal.toList <+:
        after.journal.toList)
      (fields : ∀ declaration : Declaration, declaration.define = .ok definition →
        (declaration.fields.map (·.cell)).Nodup →
        (∀ field ∈ declaration.fields,
          ¬ definition.recipe.Presets contents.arguments field.cell) →
        ∃ received : List Finding,
          Asks request ((built.noted (.entered name bean)).enter name bean)
            (received.flatMap (·.asked)) resolved ∧
          Witnessed (Sees request ((built.noted (.entered name bean)).enter name bean)) received ∧
          List.Forall₂ (fun field finding =>
            field.Receives registry properties finding.view finding.asked finding.found ∧
              contents.cells.find? field.cell = finding.found) declaration.fields received)

/-- All beans that were finished between the two heaps are populated. -/
def Populates (registry : Registry) (properties : PropertyStore) (before after : Heap) : Prop :=
  ∀ name bean, before.Notes after (.committed name bean) →
    Populated registry properties before after name bean

section Stretches

variable {registry : Registry} {properties : PropertyStore} {first second third : Heap}
  {name : String} {bean : Bean} {fills : Nat → Prop} {adds : Event → Prop}

/-- A populated bean stays so if more happened before it was made. -/
theorem Populated.later (grows : first.Grows second)
    (populated : Populated registry properties second third name bean) :
    Populated registry properties first third name bean := by
  obtain ⟨registered, isRecord, isNew, isFound, entered, finished, fields⟩ := populated
  exact .intro registered isRecord (Nat.le_trans grows.size_le isNew) isFound
    (grows.journal_isPrefix.trans entered) finished fields

/-- A populated bean stays so if more happens that does not concern its cells. -/
theorem Populated.before (populated : Populated registry properties first second name bean)
    (extended : Heap.Extends fills adds second third)
    (untouched : ∀ index, first.contents.size ≤ index → index < second.contents.size →
      ¬ fills index) :
    Populated registry properties first third name bean := by
  obtain ⟨registered, isRecord, isNew, isFound, entered, finished, fields⟩ := populated
  obtain ⟨later, isFoundLater, arguments, cells⟩ := extended.records _ _ isFound
  have same := cells (untouched _ isNew (Array.getElem?_eq_some_iff.1 isFound).1)
  refine .intro registered isRecord isNew isFoundLater entered
    (finished.trans extended.journal_isPrefix) ?_
  rw [same, arguments]
  exact fields

/-- No bean is finished where no step of a request is noted. -/
theorem Populates.of_extends (extended : Heap.Extends fills adds first second)
    (unfinished : ∀ name bean, ¬ adds (.committed name bean)) :
    Populates registry properties first second :=
  fun name bean noted => absurd (noted.of_extends extended) (unfinished name bean)

theorem Populates.of_continues (continues : first.Continues second) :
    Populates registry properties first second :=
  .of_extends continues fun _ _ inner => inner trivial

theorem Populates.refl (heap : Heap) : Populates registry properties heap heap :=
  .of_continues (.refl heap)

theorem Populates.trans (one : Populates registry properties first second)
    (two : Populates registry properties second third) (grows : first.Grows second)
    (extended : Heap.Extends fills adds second third)
    (untouched : ∀ index, first.contents.size ≤ index → index < second.contents.size →
      ¬ fills index) :
    Populates registry properties first third := by
  intro name bean noted
  rcases noted.split grows.journal_isPrefix extended.journal_isPrefix with early | late
  · exact (one name bean early).before extended untouched
  · exact (two name bean late).later grows

/-- Beans that were populated are not touched by later requests. -/
theorem Populates.grows (one : Populates registry properties first second)
    (two : Populates registry properties second third) (grows : first.Grows second)
    (growsLater : second.Grows third) : Populates registry properties first third :=
  one.trans two grows growsLater fun _ _ inside behind => Nat.not_le_of_lt inside behind

/-- Beans that are finished after others were only begun. -/
theorem Populates.later (two : Populates registry properties second third)
    (grows : first.Grows second) (extended : second.journal.toList <+: third.journal.toList)
    (unfinished : ∀ name bean, ¬ first.Notes second (.committed name bean)) :
    Populates registry properties first third := by
  intro name bean noted
  rcases noted.split grows.journal_isPrefix extended with early | late
  · exact absurd early (unfinished name bean)
  · exact (two name bean late).later grows

/-- Noting that a bean was finished. -/
theorem Populates.note (one : Populates registry properties first second)
    (grows : first.Grows second) {event : Event}
    (populated : ∀ name bean, event = .committed name bean →
      Populated registry properties first second name bean) :
    Populates registry properties first (second.note event) := by
  intro name bean noted
  have growsLater : second.Grows (second.note event) := .note _ _
  have untouched : ∀ index, first.contents.size ≤ index → index < second.contents.size →
      ¬ second.contents.size ≤ index := fun _ _ inside => Nat.not_le_of_lt inside
  rcases noted.split grows.journal_isPrefix growsLater.journal_isPrefix with early | late
  · exact (one name bean early).before growsLater untouched
  · have isEvent : Event.committed name bean = event := by
      have extended : Heap.Extends (fun _ => False) (· = event) second (second.note event) :=
        .note _ rfl
      exact late.of_extends extended
    exact (populated name bean isEvent.symm).before growsLater untouched

end Stretches

/-- Requests one after the other finish populated beans if each of them does. -/
theorem Asks.populates {start final : Container} {asked : Asked}
    (asks : Asks request start asked final)
    (each : ∀ before middle, Asks request start before middle → ∀ name,
      Populates middle.registry middle.properties middle.heap (request name middle).2.heap) :
    Populates start.registry start.properties start.heap final.heap := by
  induction asks with
  | nil => exact .refl _
  | @cons start middle final name result asked answered rest ih =>
      have first := each [] start .nil name
      have restores := request_restores name start
      have grows := request_grows name start
      rw [answered] at first restores grows
      have later := ih fun before reached asks => each _ reached (.cons answered asks)
      rw [restores.registry, restores.properties] at later
      exact first.grows later grows (rest.grows request_grows)

/-- The constructor of a new bean fills none but the cells that it presets. -/
theorem Construction.presets {definition : Definition} {name : String}
    {start built : Container} {raw : Bean} {record : Record}
    (construction : Construction request definition name start raw built)
    (isRecord : raw = .plain record) {cell : String} {value : Value}
    (filled : (built.heap.read record).cells.find? cell = some value) :
    definition.recipe.Presets (built.heap.read record).arguments cell := by
  cases construction with
  | @intro asked middle supply arguments cells _ _ _ yields =>
      have isRead := Heap.read_create isRecord
      change ((middle.heap.create definition.type arguments cells).2.read record).cells.find? cell =
        some value at filled
      change definition.recipe.Presets
        ((middle.heap.create definition.type arguments cells).2.read record).arguments cell
      rw [isRead] at filled ⊢
      exact Recipe.presets_of_yields yields filled

/-- A cell that the constructor left unset is unset until the bean is wired. -/
theorem Construction.unset {definition : Definition} {name : String}
    {start built middle : Container} {record : Record} {asked : Asked}
    (construction : Construction request definition name start (.plain record) built)
    (asks : Asks request ((built.noted (.entered name (.plain record))).enter name (.plain record))
      asked middle) {cell : String}
    (left : ¬ definition.recipe.Presets (middle.heap.read record).arguments cell) :
    (middle.heap.read record).cells.find? cell = none := by
  obtain ⟨_, _, isRecord, _, inside⟩ := construction.grows request_grows
  cases isRecord
  have asking := asks.grows_entered request_grows
  rw [asking.read_arguments inside] at left
  rw [asking.read_cells inside (Nat.not_le_of_lt inside)]
  cases filled : (built.heap.read record).cells.find? cell with
  | none => rfl
  | some value => exact absurd (construction.presets rfl filled) left

/-- The cells of the declared fields hold what was received for them once the bean could be
finished. -/
theorem Construction.fills {definition : Definition} {name : String}
    {start built middle : Container} {record : Record} {findings : List Finding} {heap : Heap}
    {chain : Chain}
    (construction : Construction request definition name start (.plain record) built)
    (asks : Asks request ((built.noted (.entered name (.plain record))).enter name (.plain record))
      (findings.flatMap (·.asked)) middle)
    (resolves : Resolves start.registry start.properties definition.fields findings)
    (witnessed : Witnessed (Sees request ((built.noted (.entered name (.plain record))).enter name
      (.plain record))) findings)
    (ran : finish chain definition name (.plain record)
      (supplyOf definition.fields (findings.map (·.found)) .empty) middle.heap = (.ok (), heap))
    {declaration : Declaration} (declared : declaration.define = .ok definition)
    (distinct : (declaration.fields.map (·.cell)).Nodup)
    (left : ∀ field ∈ declaration.fields,
      ¬ definition.recipe.Presets (heap.read record).arguments field.cell) :
    ∃ received : List Finding,
      Asks request ((built.noted (.entered name (.plain record))).enter name (.plain record))
        (received.flatMap (·.asked)) middle ∧
      Witnessed (Sees request ((built.noted (.entered name (.plain record))).enter name
        (.plain record))) received ∧
      List.Forall₂ (fun field finding =>
        field.Receives start.registry start.properties finding.view finding.asked finding.found ∧
          (heap.read record).cells.find? field.cell = finding.found) declaration.fields received := by
  obtain ⟨_, _, isRecord, _, inside⟩ := construction.grows request_grows
  cases isRecord
  have asking := asks.grows_entered request_grows
  have stillInside := Nat.lt_of_lt_of_le inside asking.size_le
  have wires := finish_wires chain definition name (.plain record)
    (supplyOf definition.fields (findings.map (·.found)) .empty) middle.heap
  rw [ran] at wires
  have unset : ∀ field ∈ declaration.fields, ∀ value,
      (middle.heap.read record).cells.find? field.cell ≠ some value := by
    intro field isField value filled
    have leftUnset := left field isField
    rw [wires.grows.read_arguments stillInside] at leftUnset
    rw [construction.unset asks leftUnset] at filled
    cases filled
  have points := Declaration.points_of_define declared
  obtain ⟨received, receives, sameAsked, isSeen, sameCells⟩ :=
    resolves.receives points witnessed fun prior later split => by
      rw [split] at asks
      obtain ⟨reached, before, _⟩ := asks.of_append
      exact ⟨reached.heap, reached, before, rfl⟩
  have holds := forall₂_of_cells distinct receives.length_eq fun field isField value => by
    have ascending := (Field.points_numbered points).2
    rw [finish_fills ascending stillInside ran, or_iff_right (unset field isField value),
      exists_supplied_iff ascending resolves]
    exact sameCells field.cell value
  refine ⟨received, by rw [sameAsked]; exact asks, isSeen,
    List.forall₂_iff_zip.2 ⟨receives.length_eq, ?_⟩⟩
  intro field finding member
  exact ⟨(List.forall₂_iff_zip.1 receives).2 member, (List.forall₂_iff_zip.1 holds).2 member⟩

/-- A bean whose fields could be written and that could be processed is populated. -/
theorem Construction.populated {definition : Definition} {name : String}
    {start built middle : Container} {raw : Bean} {asked : Asked} {heap : Heap}
    (registered : start.registry.find? name = some definition)
    (construction : Construction request definition name start raw built)
    (asks : Asks request ((built.noted (.entered name raw)).enter name raw) asked middle)
    (finishing : Finishing definition name raw
      (Sees request ((built.noted (.entered name raw)).enter name raw)) asked middle (.ok ()) heap) :
    Populated start.registry start.properties start.heap heap name raw := by
  obtain ⟨before, record, rfl, behind, inside⟩ := construction.grows request_grows
  have made := construction.restores request_restores
  have asking := asks.restores request_restores
  cases finishing with
  | run gathers ran =>
      rw [asking.registry.trans made.registry, asking.properties.trans made.properties] at gathers
      cases gathers with
      | all findings resolves witnessed =>
          have developed := asks.grows_entered request_grows
          obtain ⟨left, written, wrote, continues⟩ := finish_eq_ok ran
          have wires := Supply.write_wires (.plain record) definition.fields
            (supplyOf definition.fields (findings.map (·.found)) .empty)
            (middle.heap.note (.resolved name (.plain record)))
          rw [wrote] at wires
          have stillInside : record.index < heap.contents.size :=
            Nat.lt_of_lt_of_le inside (Nat.le_trans developed.size_le
              (Nat.le_trans wires.grows.size_le continues.size_le))
          exact .intro registered rfl behind (Heap.getElem?_eq_read stillInside)
            before.journal_isPrefix
            (wires.grows.journal_isPrefix.trans continues.journal_isPrefix)
            fun declaration declared distinct left =>
              construction.fills asks resolves witnessed ran declared distinct left

section Ways

variable {name : String} {start : Container}
  (inner : ∀ other middle, Nested request name start middle →
    Populates middle.registry middle.properties middle.heap (request other middle).2.heap)
include inner

/-- Until a bean is created, only beans that its arguments lead to are finished. -/
theorem Construction.populates {definition : Definition} {built : Container} {raw : Bean}
    (registered : start.registry.find? name = some definition)
    (construction : Construction request definition name start raw built) :
    ∃ (earlier : Heap) (record : Record), raw = .plain record ∧
      record.index = earlier.contents.size ∧ start.heap.Grows earlier ∧
      Heap.Extends (fun _ => False) (fun event => ∀ other bean, event ≠ .committed other bean)
        earlier built.heap ∧
      Populates start.registry start.properties start.heap earlier := by
  cases construction with
  | @intro asked middle supply arguments cells idle asks _ _ =>
      refine ⟨middle.heap, _, rfl, rfl, asks.grows request_grows, ?_, ?_⟩
      · exact .trans (.create _ _ _ _ nofun) (.note _ nofun)
      · exact asks.populates fun before reached asks other =>
          inner other reached (.constructing registered idle asks)

theorem Construction.populates_built {definition : Definition} {built : Container} {raw : Bean}
    (registered : start.registry.find? name = some definition)
    (construction : Construction request definition name start raw built) :
    Populates start.registry start.properties start.heap built.heap := by
  obtain ⟨earlier, record, _, _, before, begun, populates⟩ :=
    construction.populates inner registered
  exact populates.trans (.of_extends begun fun other bean differs => differs other bean rfl) before
    begun fun _ _ _ => not_false

/-- Making and developing a bean populates the beans that it leads to. -/
theorem Construction.populates_developing {definition : Definition} {built middle : Container}
    {raw : Bean} {asked : Asked} {heap : Heap} {result : Except BeanError Unit}
    (registered : start.registry.find? name = some definition)
    (construction : Construction request definition name start raw built)
    (fresh : built.inCreation.find? name = none)
    (asks : Asks request ((built.noted (.entered name raw)).enter name raw) asked middle)
    {sees : Asked → Heap → Prop}
    (finishing : Finishing definition name raw sees asked middle result heap) :
    Populates start.registry start.properties start.heap heap := by
  have made := construction.restores request_restores
  obtain ⟨earlier, record, rfl, isNext, before, begun, populates⟩ :=
    construction.populates inner registered
  have asking : Populates start.registry start.properties
      (built.noted (.entered name (.plain record))).heap middle.heap := by
    rw [← made.registry, ← made.properties]
    exact asks.populates fun before reached asks other =>
      inner other reached (.creating registered construction fresh asks)
  have beginning : Heap.Extends (fun _ => False)
      (fun event => ∀ other bean, event ≠ .committed other bean) earlier
      (built.noted (.entered name (.plain record))).heap := begun.trans (.note _ nofun)
  have aging : earlier.Grows (built.noted (.entered name (.plain record))).heap :=
    beginning.mono (fun _ impossible => impossible.elim) fun _ _ => trivial
  have asked := asks.grows request_grows
  have isOlder : record.index < built.heap.contents.size := by
    obtain ⟨_, other, same, _, inside⟩ := construction.grows request_grows
    cases same
    exact inside
  have finished : Populates start.registry start.properties
      (built.noted (.entered name (.plain record))).heap heap := by
    refine asking.trans (.of_extends finishing.wires fun _ _ inner => inner trivial) asked
      finishing.wires ?_
    intro index behind _ isAt
    obtain ⟨other, isOther, rfl⟩ := isAt
    cases isOther
    exact Nat.not_le_of_lt isOlder behind
  refine populates.grows (finished.later aging ?_ ?_) before ?_
  · exact asked.journal_isPrefix.trans finishing.wires.journal_isPrefix
  · exact fun other bean noted => noted.of_extends beginning other bean rfl
  · exact Heap.Extends.trans (aging.trans asked)
      (finishing.grows ⟨record, rfl, Nat.le_of_eq isNext.symm⟩)

theorem Making.populates {definition : Definition} {final : Container}
    {result : Except BeanError Handout}
    (registered : start.registry.find? name = some definition)
    (making : Making request definition name start result final) :
    Populates start.registry start.properties start.heap final.heap := by
  cases making with
  | busy => exact .refl _
  | unconstructed idle asks =>
      exact asks.populates fun before reached asks other =>
        inner other reached (.constructing registered idle asks)
  | refused construction => exact construction.populates_built inner registered
  | shared construction =>
      exact (construction.populates_built inner registered).note
        (construction.grows request_grows).1 nofun
  | abandoned construction fresh asks finishing =>
      exact (construction.populates_developing inner registered fresh asks finishing).note
        (construction.developing request_grows asks finishing) nofun
  | @finished raw built middle asked heap construction fresh asks finishing =>
      have grows := construction.developing request_grows asks finishing
      have developed := construction.populates_developing inner registered fresh asks finishing
      have committed : Populates start.registry start.properties start.heap
          (heap.note (.committed name raw)) := by
        refine developed.note grows ?_
        intro other bean same
        cases same
        exact construction.populated registered asks finishing
      rw [finished_heap]
      exact committed.note (grows.trans (.note _ _)) nofun

theorem Answering.populates {final : Container} {result : Except BeanError Handout}
    (answering : Answering request name start result final) :
    Populates start.registry start.properties start.heap final.heap := by
  cases answering with
  | cached => exact .note (.refl _) (.refl _) nofun
  | unknown => exact .refl _
  | made _ registered making => exact making.populates inner registered

end Ways

/-- All beans that are finished while a request is answered are populated, whether it succeeds
or not. -/
theorem request_populates (name : String) (start : Container) :
    Populates start.registry start.properties start.heap (request name start).2.heap :=
  request_induct (motive := fun _ start _ final =>
      Populates start.registry start.properties start.heap final.heap)
    (fun _ _ _ _ answering inner => answering.populates inner) name start

/-- The bean that is handed out was cached or in creation before, or it was finished for the
request. -/
theorem Answering.handout {name : String} {start final : Container} {handout : Handout}
    (answering : Answering request name start (.ok handout) final) :
    start.singletons.find? name = some handout.bean ∨
      start.inCreation.find? name = some handout.bean ∨
        start.heap.Notes final.heap (.committed name handout.bean) := by
  cases answering with
  | cached found => exact .inl found
  | made _ registered making =>
      cases making with
      | shared construction pending =>
          rw [(construction.restores request_restores).inCreation] at pending
          exact .inr (.inl pending)
      | @finished _ _ _ _ heap construction _ asks finishing =>
          have grows := construction.developing request_grows asks finishing
          rw [finished_heap]
          refine .inr (.inr (Heap.Notes.before (.later grows.journal_isPrefix (.note heap _)) ?_))
          exact (Heap.Grows.note _ _).journal_isPrefix

end Container
end BeanContainer
