import Mathlib.Data.List.Basic
import ViewSchema.Proofs.JsonPositions
import ViewSchema.Proofs.RecordedViews

/-! The walk over a document, with the position of everything it records. The positions change nothing in what
is recorded; they tell which instance an observation is about. So they show that the walk never comes back
to an instance or to a field of one, and that it comes to every place that plain keys lead to. -/
namespace ViewSchema.LocatedObservations
open JsonStructure JsonPositions ExtractionProvenance RecordedViews

/-- One step of the walk: from a place to the next one, with the sample it records on the way. -/
structure Leg where
  step : Step
  sample? : Option Sample
  next : Place

/-- The use of a view that is recorded at a place. -/
def instanceUse? (config : Config) (origin : String) : Place → Option Observation
  | ⟨asBag, .object members⟩ =>
    (if asBag then none else instanceKey? config members).map fun view =>
      .usage view origin (viewNote? members)
  | _ => none

/-- The step into a field of an instance. -/
def fieldLeg (config : Config) (origin : String) (view : ViewKey) (members : List (String × Json))
    (field : String) (value : Json) : Leg :=
  ⟨.member field, fieldSample? config origin view members field value, ⟨config.isMapField field, value⟩⟩

/-- The step into a member of a bag. -/
def memberLeg (key : String) (value : Json) : Leg := ⟨.member key, none, ⟨false, value⟩⟩

/-- A step into each of some members but for the remarks among them. -/
def plainLegs (leg : String → Json → Leg) (members : List (String × Json)) : List Leg :=
  members.flatMap fun member => if isMetaKey member.1 then [] else [leg member.1 member.2]

/-- The steps of the walk from a place, in the order in which it takes them. -/
def legs (config : Config) (origin : String) : Place → List Leg
  | ⟨_, .array items⟩ => items.mapIdx fun index item => ⟨.item index, none, ⟨false, item⟩⟩
  | ⟨asBag, .object members⟩ =>
    match if asBag then none else instanceKey? config members with
    | some view => plainLegs (fieldLeg config origin view members) members
    | none => plainLegs memberLeg members
  | _ => []

/-- What it takes for the walk to take a step. -/
inductive Walks (config : Config) (origin : String) : Place → Leg → Prop where
  | item (found : items[index]? = some item) :
      Walks config origin ⟨asBag, .array items⟩ ⟨.item index, none, ⟨false, item⟩⟩
  | field (named : instanceKey? config members = some view) (held : (key, value) ∈ members)
      (plain : isMetaKey key = false) :
      Walks config origin ⟨false, .object members⟩ (fieldLeg config origin view members key value)
  | member (bag : TakenAsBag config asBag members) (held : (key, value) ∈ members)
      (plain : isMetaKey key = false) : Walks config origin ⟨asBag, .object members⟩ (memberLeg key value)

theorem legs_instance (origin : String) (named : instanceKey? config members = some view) :
    legs config origin ⟨false, .object members⟩ = plainLegs (fieldLeg config origin view members) members := by
  simp only [legs, Bool.false_eq_true, ↓reduceIte, named]

theorem legs_bag (origin : String) (bag : TakenAsBag config asBag members) :
    legs config origin ⟨asBag, .object members⟩ = plainLegs memberLeg members := by
  rcases bag with rfl | unnamed
  · rfl
  · cases asBag <;> simp only [legs, Bool.false_eq_true, ↓reduceIte, unnamed]

theorem instanceUse?_instance (origin : String) (named : instanceKey? config members = some view) :
    instanceUse? config origin ⟨false, .object members⟩ = some (.usage view origin (viewNote? members)) := by
  simp only [instanceUse?, Bool.false_eq_true, ↓reduceIte, named, Option.map_some]

theorem instanceUse?_bag (origin : String) (bag : TakenAsBag config asBag members) :
    instanceUse? config origin ⟨asBag, .object members⟩ = none := by
  rcases bag with rfl | unnamed
  · rfl
  · cases asBag <;> simp only [instanceUse?, Bool.false_eq_true, ↓reduceIte, unnamed, Option.map_none]

theorem instanceUse?_eq_some : instanceUse? config origin place = some observation ↔
    ∃ members view, place = ⟨false, .object members⟩ ∧ instanceKey? config members = some view ∧
      observation = .usage view origin (viewNote? members) := by
  constructor
  · intro used
    obtain ⟨asBag, value⟩ := place
    cases value with
    | object members =>
      rcases taken_cases config asBag members with ⟨rfl, view, named⟩ | bag
      · rw [instanceUse?_instance origin named] at used
        exact ⟨members, view, rfl, named, (Option.some.inj used).symm⟩
      · rw [instanceUse?_bag origin bag] at used
        cases used
    | _ => cases used
  · rintro ⟨members, view, rfl, named, rfl⟩
    exact instanceUse?_instance origin named

theorem mem_plainLegs {leg : String → Json → Leg} : taken ∈ plainLegs leg members ↔
    ∃ key value, (key, value) ∈ members ∧ isMetaKey key = false ∧ taken = leg key value := by
  simp only [plainLegs, mem_flatMap_plain fun key value => [leg key value], List.mem_singleton]

theorem mem_legs : leg ∈ legs config origin place ↔ Walks config origin place leg := by
  obtain ⟨asBag, value⟩ := place
  cases value with
  | array items =>
    simp only [legs, List.mem_mapIdx]
    constructor
    · rintro ⟨index, inside, rfl⟩
      exact .item (List.getElem?_eq_getElem inside)
    · rintro ⟨found⟩
      obtain ⟨inside, rfl⟩ := List.getElem?_eq_some_iff.mp found
      exact ⟨_, inside, rfl⟩
  | object members =>
    rcases taken_cases config asBag members with ⟨rfl, view, named⟩ | bag
    · rw [legs_instance origin named, mem_plainLegs]
      constructor
      · rintro ⟨key, value, held, plain, rfl⟩
        exact .field named held plain
      · rintro (_ | ⟨again, held, plain⟩ | ⟨bag, held, plain⟩)
        · cases named.symm.trans again
          exact ⟨_, _, held, plain, rfl⟩
        · simp [TakenAsBag, named] at bag
    · rw [legs_bag origin bag, mem_plainLegs]
      constructor
      · rintro ⟨key, value, held, plain, rfl⟩
        exact .member bag held plain
      · rintro (_ | ⟨named, held, plain⟩ | ⟨bag, held, plain⟩)
        · simp [TakenAsBag, named] at bag
        · exact ⟨_, _, held, plain, rfl⟩
  | _ =>
    simp only [legs, List.not_mem_nil, false_iff]
    rintro ⟨⟩

theorem smaller_of_leg (taken : leg ∈ legs config origin place) :
    sizeOf leg.next.value < sizeOf place.value := by
  cases mem_legs.mp taken with
  | item found =>
    have smaller := List.sizeOf_lt_of_mem (List.mem_of_getElem? found)
    simp only [Json.array.sizeOf_spec]
    omega
  | field _ held _ | member _ held _ =>
    have smaller := List.sizeOf_lt_of_mem held
    simp only [Json.object.sizeOf_spec, Prod.mk.sizeOf_spec] at smaller ⊢
    simp only [fieldLeg, memberLeg]
    omega

/-- What a step adds to what the walk records from the next place on. -/
def Leg.entries (leg : Leg) (below : List (Position × Observation)) : List (Position × Observation) :=
  (leg.sample?.map (([], .sample ·))).toList ++ below.map fun entry => (leg.step :: entry.1, entry.2)

/-- The observations of a walk from a place, each with the position of the instance that it is about. -/
def located (config : Config) (origin : String) (place : Place) : List (Position × Observation) :=
  (instanceUse? config origin place).toList.map (([], ·)) ++
    (legs config origin place).attach.flatMap fun ⟨leg, _⟩ => leg.entries (located config origin leg.next)
termination_by sizeOf place.value
decreasing_by exact smaller_of_leg ‹_›

theorem located_step (config : Config) (origin : String) (place : Place) : located config origin place =
    (instanceUse? config origin place).toList.map (([], ·)) ++
      (legs config origin place).flatMap fun leg => leg.entries (located config origin leg.next) := by
  rw [located, List.flatMap_subtype (fun _ _ => rfl), List.unattach_attach]
  rfl

private theorem observeItems_eq_flatMap (config : Config) (origin : String) (items : List Json)
    (leg : Nat → Json → Leg) (through : ∀ index item, (leg index item).sample? = none ∧
      (leg index item).next = ⟨false, item⟩) :
    observeItems config origin items = (items.mapIdx leg).flatMap fun leg =>
      (leg.sample?.map .sample).toList ++ observe config origin leg.next.asBag leg.next.value := by
  induction items generalizing leg with
  | nil => rfl
  | cons item rest ih =>
    obtain ⟨silent, next⟩ := through 0 item
    rw [observeItems, List.mapIdx_cons, List.flatMap_cons, silent, next,
      ih (fun index => leg (index + 1)) fun index => through (index + 1)]
    rfl

/-- The walk at a place is a use of a view, if the place shows one, and the walk at every place after it. -/
theorem observe_step (config : Config) (origin : String) (place : Place) :
    observe config origin place.asBag place.value =
      (instanceUse? config origin place).toList ++ (legs config origin place).flatMap fun leg =>
        (leg.sample?.map .sample).toList ++ observe config origin leg.next.asBag leg.next.value := by
  obtain ⟨asBag, value⟩ := place
  cases value with
  | array items =>
    exact observeItems_eq_flatMap config origin items _ fun _ _ => ⟨rfl, rfl⟩
  | object members =>
    rcases taken_cases config asBag members with ⟨rfl, view, named⟩ | bag
    · rw [observe_instance named, observeFields_eq_flatMap, instanceUse?_instance origin named,
        legs_instance origin named, plainLegs, List.flatMap_assoc]
      congr 1
      refine List.flatMap_congr fun member _ => ?_
      split
      · rfl
      · exact (List.flatMap_singleton _ _).symm
    · rw [observe_bag bag, observeMembers_eq_flatMap, instanceUse?_bag origin bag, legs_bag origin bag,
        plainLegs, List.flatMap_assoc]
      refine List.flatMap_congr fun member _ => ?_
      split
      · rfl
      · exact (List.flatMap_singleton _ _).symm
  | _ => rfl

/-- Without the positions, what is left is what the walk observes. -/
theorem located_observations (config : Config) (origin : String) (place : Place) :
    (located config origin place).map Prod.snd = observe config origin place.asBag place.value := by
  induction place using located.induct config origin with
  | case1 place ih =>
    rw [located_step, observe_step, List.map_append, List.map_flatMap, List.map_map]
    congr 1
    · exact List.map_id _
    · refine List.flatMap_congr fun leg taken => ?_
      rw [← ih leg taken, Leg.entries, List.map_append, List.map_map]
      congr 1
      cases leg.sample? <;> rfl

/-! ### No observation is made twice -/

/-- What an observation is about: an instance, or a field of one. -/
def subject (entry : Position × Observation) : Position × Option String :=
  (entry.1, (sampleOf? entry.2).map Sample.field)

/-- The first step of the walk on its way to the subject. -/
def firstStep? : Position × Option String → Option Step
  | (step :: _, _) => some step
  | ([], some field) => some (.member field)
  | ([], none) => none

theorem mem_entries {leg : Leg} : entry ∈ leg.entries below ↔
    (∃ sample, leg.sample? = some sample ∧ ([], .sample sample) = entry) ∨
      ∃ position observation, (position, observation) ∈ below ∧ (leg.step :: position, observation) = entry := by
  simp only [Leg.entries, List.mem_append, Option.mem_toList, Option.map_eq_some_iff, List.mem_map, Prod.exists]

/-- A sample is recorded on the step into its field. -/
theorem step_of_sample (taken : leg ∈ legs config origin place) (sampled : leg.sample? = some sample) :
    leg.step = .member sample.field := by
  cases mem_legs.mp taken with
  | item found => cases sampled
  | field named held plain =>
    obtain ⟨kind, classified, rfl⟩ := Option.map_eq_some_iff.mp sampled
    rfl
  | member bag held plain => cases sampled

theorem firstStep_of_entry (taken : leg ∈ legs config origin place) (recorded : entry ∈ leg.entries below) :
    firstStep? (subject entry) = some leg.step := by
  rcases mem_entries.mp recorded with ⟨sample, sampled, rfl⟩ | ⟨position, observation, later, rfl⟩
  · rw [step_of_sample taken sampled]
    rfl
  · rfl

theorem distinct_of_leg (distinct : DistinctKeys place.value) (taken : leg ∈ legs config origin place) :
    DistinctKeys leg.next.value := by
  cases mem_legs.mp taken with
  | item found => exact distinct.item (List.mem_of_getElem? found)
  | field named held plain => exact distinct.member held plain
  | member bag held plain => exact distinct.member held plain

private theorem plainLegs_apart {members : List (String × Json)} (keys : (members.map Prod.fst).Nodup)
    {leg : String → Json → Leg} (through : ∀ key value, (leg key value).step = .member key) :
    (plainLegs leg members).Pairwise fun a b => a.step ≠ b.step := by
  have step : ∀ {member : String × Json} {taken},
      taken ∈ (if isMetaKey member.1 then [] else [leg member.1 member.2]) → taken.step = .member member.1 := by
    intro member taken listed
    split at listed
    · cases listed
    · rw [List.mem_singleton.mp listed, through]
  refine List.pairwise_flatMap.mpr ⟨fun member _ => ?_, (List.pairwise_map.mp keys).imp ?_⟩
  · split
    · exact .nil
    · exact List.pairwise_singleton _ _
  · intro member other apart a first b second same
    rw [step first, step second] at same
    exact apart (Step.member.inj same)

/-- The steps from a place lead apart. -/
theorem legs_apart (config : Config) (origin : String) (distinct : DistinctKeys place.value) :
    (legs config origin place).Pairwise fun a b => a.step ≠ b.step := by
  obtain ⟨asBag, value⟩ := place
  cases value with
  | array items =>
    rw [legs, List.pairwise_iff_getElem]
    intro i j _ _ before same
    simp only [List.getElem_mapIdx, Step.item.injEq] at same
    omega
  | object members =>
    rcases taken_cases config asBag members with ⟨rfl, view, named⟩ | bag
    · rw [legs_instance origin named]
      exact plainLegs_apart distinct.keys fun _ _ => rfl
    · rw [legs_bag origin bag]
      exact plainLegs_apart distinct.keys fun _ _ => rfl
  | _ => exact .nil

private theorem entries_apart (leg : Leg) (below : entries.Pairwise fun a b => subject a ≠ subject b) :
    (leg.entries entries).Pairwise fun a b => subject a ≠ subject b := by
  refine List.pairwise_append.mpr ⟨?_, List.pairwise_map.mpr (below.imp ?_), ?_⟩
  · cases leg.sample? <;> simp
  · rintro ⟨p, a⟩ ⟨q, b⟩ apart same
    simp only [subject, Prod.mk.injEq, List.cons.injEq, true_and] at same
    exact apart (Prod.ext same.1 same.2)
  · intro a sampled b later same
    obtain ⟨sample, _, rfl⟩ := Option.map_eq_some_iff.mp (Option.mem_toList.mp sampled)
    obtain ⟨entry, _, rfl⟩ := List.mem_map.mp later
    cases congrArg Prod.fst same

/-- Each instance is recorded once, and each field of it. -/
theorem located_apart (config : Config) (origin : String) (place : Place)
    (distinct : DistinctKeys place.value) : (located config origin place).Pairwise fun a b =>
      subject a ≠ subject b := by
  induction place using located.induct config origin with
  | case1 place ih =>
    -- The first steps tell apart what lies below different legs, and the place itself has no first step.
    rw [located_step, List.pairwise_append, List.pairwise_flatMap]
    refine ⟨?_, ⟨fun leg taken => ?_, ?_⟩, ?_⟩
    · cases instanceUse? config origin place <;> simp
    · exact entries_apart leg (ih leg taken (distinct_of_leg distinct taken))
    · refine (legs_apart config origin distinct).imp_of_mem fun first second apart => ?_
      intro a recorded b recordedToo same
      have steps := (firstStep_of_entry first recorded).symm.trans (same ▸ firstStep_of_entry second recordedToo)
      exact apart (Option.some.inj steps)
    · intro a used b recorded same
      obtain ⟨leg, taken, listed⟩ := List.mem_flatMap.mp recorded
      obtain ⟨observation, here, rfl⟩ := List.mem_map.mp used
      obtain ⟨members, view, rfl, _, rfl⟩ := instanceUse?_eq_some.mp (Option.mem_toList.mp here)
      cases (congrArg firstStep? same).trans (firstStep_of_entry taken listed)

/-! ### Every observation has its place -/

/-- The walk comes from one place to another by these steps. -/
inductive Reaches (config : Config) (origin : String) : Place → Position → Place → Prop where
  | here : Reaches config origin place [] place
  | step (taken : leg ∈ legs config origin place) (rest : Reaches config origin leg.next position last) :
      Reaches config origin place (leg.step :: position) last

/-- What the walk records of an object that it takes for an instance. -/
inductive Shown (config : Config) (origin : String) : Place → Observation → Prop where
  | usage (named : instanceKey? config members = some view) :
      Shown config origin ⟨false, .object members⟩ (.usage view origin (viewNote? members))
  | sample (named : instanceKey? config members = some view) (held : (key, value) ∈ members)
      (plain : isMetaKey key = false)
      (found : fieldSample? config origin view members key value = some sample) :
      Shown config origin ⟨false, .object members⟩ (.sample sample)

private theorem shown_of_use (used : instanceUse? config origin place = some observation) :
    Shown config origin place observation := by
  obtain ⟨members, view, rfl, named, rfl⟩ := instanceUse?_eq_some.mp used
  exact .usage named

private theorem shown_of_leg (taken : leg ∈ legs config origin place) (sampled : leg.sample? = some sample) :
    Shown config origin place (.sample sample) := by
  cases mem_legs.mp taken with
  | item held => cases sampled
  | field named held plain => exact .sample named held plain sampled
  | member bag held plain => cases sampled

/-- An observation is located where the walk comes to an instance that shows it. -/
theorem mem_located : (position, observation) ∈ located config origin place ↔
    ∃ last, Reaches config origin place position last ∧ Shown config origin last observation := by
  induction place using located.induct config origin generalizing position with
  | case1 place ih =>
    rw [located_step]
    simp only [List.mem_append, List.mem_map, Option.mem_toList, List.mem_flatMap, mem_entries, Prod.mk.injEq]
    constructor
    · rintro (⟨_, used, rfl, rfl⟩ | ⟨leg, taken, ⟨sample, sampled, rfl, rfl⟩ | ⟨rest, _, later, rfl, rfl⟩⟩)
      · exact ⟨place, .here, shown_of_use used⟩
      · exact ⟨place, .here, shown_of_leg taken sampled⟩
      · obtain ⟨last, path, shown⟩ := (ih leg taken).mp later
        exact ⟨last, .step taken path, shown⟩
    · rintro ⟨last, path, shown⟩
      cases path with
      | here =>
        cases shown with
        | usage named => exact .inl ⟨_, instanceUse?_instance origin named, rfl, rfl⟩
        | sample named held plain found =>
          exact .inr ⟨_, mem_legs.mpr (.field named held plain), .inl ⟨_, found, rfl, rfl⟩⟩
      | step taken path =>
        exact .inr ⟨_, taken, .inr ⟨_, _, (ih _ taken).mpr ⟨last, path, shown⟩, rfl, rfl⟩⟩

/-! ### The places of the walk in the document -/

/-- A step of the walk leads where the same step leads in the document. -/
theorem at?_leg (distinct : DistinctKeys place.value) (taken : leg ∈ legs config origin place) (rest : Position) :
    at? place.value (leg.step :: rest) = at? leg.next.value rest := by
  cases mem_legs.mp taken with
  | item held => rw [at?, held, Option.bind_some]
  | field named held plain =>
    rw [fieldLeg, at?, member?_of_mem distinct.keys held, Option.bind_some]
  | member bag held plain =>
    rw [memberLeg, at?, member?_of_mem distinct.keys held, Option.bind_some]

theorem plain_leg (taken : leg ∈ legs config origin place) : Plain (leg.step :: rest) ↔ Plain rest := by
  cases mem_legs.mp taken with
  | item held => exact plain_cons_item
  | field named held plain | member bag held plain => exact plain_cons_member.trans (and_iff_right plain)

/-- The walk comes to nothing but values of the document, each at the position of the steps to it. -/
theorem found_of_reached (path : Reaches config origin place position last) (distinct : DistinctKeys place.value) :
    at? place.value position = some last.value ∧ Plain position ∧ DistinctKeys last.value := by
  induction path with
  | here => exact ⟨by rw [at?], plain_nil, distinct⟩
  | step taken path ih =>
    obtain ⟨found, plain, later⟩ := ih (distinct_of_leg distinct taken)
    exact ⟨(at?_leg distinct taken _).trans found, (plain_leg taken).mpr plain, later⟩

/-- The position leads to the value of a map key. -/
def UnderMapKey (config : Config) (position : Position) : Prop :=
  ∃ key, position.getLast? = some (.member key) ∧ config.isMapField key = true

theorem UnderMapKey.cons (under : UnderMapKey config position) (step : Step) :
    UnderMapKey config (step :: position) := by
  obtain ⟨key, last, mapKey⟩ := under
  exact ⟨key, by rw [List.getLast?_cons, last]; rfl, mapKey⟩

/-- The walk takes every step through plain keys, and makes a bag of nothing but the value of a map key. -/
theorem leg_of_found (config : Config) (origin : String) (asBag : Bool)
    (found : at? value (step :: rest) = some part) (plain : Plain (step :: rest)) :
    ∃ leg ∈ legs config origin ⟨asBag, value⟩, leg.step = step ∧ at? leg.next.value rest = some part ∧
      Plain rest ∧ (leg.next.asBag = true → UnderMapKey config [step]) := by
  cases value with
  | array items =>
    cases step with
    | item index =>
      obtain ⟨item, held, later⟩ := Option.bind_eq_some_iff.mp found
      exact ⟨_, mem_legs.mpr (.item held), rfl, later, plain_cons_item.mp plain, nofun⟩
    | member key => cases found
  | object members =>
    cases step with
    | item index => cases found
    | member key =>
      obtain ⟨value, looked, later⟩ := Option.bind_eq_some_iff.mp found
      obtain ⟨unremarked, plain⟩ := plain_cons_member.mp plain
      have held := mem_of_member? looked
      rcases taken_cases config asBag members with ⟨rfl, view, named⟩ | bag
      · have under : config.isMapField key = true → UnderMapKey config [.member key] := fun mapKey =>
          ⟨key, rfl, mapKey⟩
        exact ⟨_, mem_legs.mpr (.field named held unremarked), rfl, later, plain, under⟩
      · exact ⟨_, mem_legs.mpr (.member bag held unremarked), rfl, later, plain, nofun⟩
  | _ => cases step <;> cases found

/-- The walk comes to every value that plain keys lead to, in the role of a bag only below a map key. -/
theorem reached_of_found (config : Config) (origin : String) (asBag : Bool)
    (found : at? value position = some part) (plain : Plain position) :
    ∃ role, Reaches config origin ⟨asBag, value⟩ position ⟨role, part⟩ ∧
      (role = true → asBag = true ∧ position = [] ∨ UnderMapKey config position) := by
  induction position generalizing value asBag with
  | nil =>
    cases found
    exact ⟨asBag, .here, fun bag => .inl ⟨bag, rfl⟩⟩
  | cons step rest ih =>
    obtain ⟨leg, taken, rfl, later, plain, mapKey⟩ := leg_of_found config origin asBag found plain
    obtain ⟨role, path, bag⟩ := ih leg.next.asBag later plain
    refine ⟨role, .step taken path, fun asBag => .inr ?_⟩
    rcases bag asBag with ⟨legBag, rfl⟩ | under
    · exact mapKey legBag
    · exact under.cons leg.step

end ViewSchema.LocatedObservations
