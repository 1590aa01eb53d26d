import Chatbox.Lib.OrderedMap
import Chatbox.Lib.Run
import Chatbox.Lib.Text

/-!
Port mappings on the router. Every mapper deletes what it has opened when it is destroyed,
unless a table that all mappers share says that the port has been opened again since. A
mapper that has found no router opens nothing and deletes nothing, so it is left out.
-/

namespace Chatbox.Network

open Text

inductive Proto where
  | tcp
  | udp
deriving DecidableEq, Repr

def Proto.text : Proto → Bytes
  | .tcp => ascii "TCP"
  | .udp => ascii "UDP"

/-- A port of a router. `openPort` is called with a number that has been printed, and the
name of a protocol. -/
@[ext] structure PortMapping where
  controlURL : Bytes
  port : UInt16
  proto : Proto
deriving DecidableEq, Repr

/-- `std::string(urls_.controlURL) + "|" + port + "|" + proto` -/
def PortMapping.key (mapping : PortMapping) : Bytes :=
  mapping.controlURL ++ ascii "|" ++ toDecimal mapping.port.toNat ++ ascii "|" ++ mapping.proto.text

/-- `Mapping` -/
structure OwnedPort where
  port : UInt16
  proto : Proto
  owner : Nat
deriving DecidableEq, Repr

structure UPnPMapper where
  controlURL : Bytes
  mappings : List OwnedPort := []
deriving DecidableEq, Repr

/-- The mapping on the router of the mapper. -/
def UPnPMapper.target (mapper : UPnPMapper) (mapping : OwnedPort) : PortMapping :=
  { controlURL := mapper.controlURL, port := mapping.port, proto := mapping.proto }

inductive MapperObject where
  | unborn
  | alive (mapper : UPnPMapper)
  | destroyed
deriving DecidableEq, Repr

abbrev MappingOwners := Std.ExtTreeMap Bytes Nat

/-- The owner table and the routers, which the destructor changes. -/
structure SharedPorts where
  mappingOwners : MappingOwners := ∅
  router : PortMapping → Bool := fun _ => false

/-- All mapper objects with what they share. `nextOwner` stands for a counter of 64 bits, which
fewer than `2 ^ 64` calls do not exhaust; `opened` notes for each mapping who opened it last. -/
structure PortMappings where
  shared : SharedPorts := {}
  nextOwner : Nat := 0
  mappers : Nat → MapperObject := fun _ => .unborn
  opened : PortMapping → Option Nat := fun _ => none

/-- The body of the loop of the destructor. Reading `mapping_owners_[key]` puts a zero
where there is no owner. -/
def SharedPorts.release (mapper : UPnPMapper) (shared : SharedPorts) (mapping : OwnedPort) :
    SharedPorts :=
  let target := mapper.target mapping
  let owners := shared.mappingOwners.insertIfNew target.key 0
  if owners[target.key]? ≠ some mapping.owner then { shared with mappingOwners := owners }
  else
    { mappingOwners := owners.erase target.key
      router := Function.update shared.router target false }

namespace PortMappings

/-- A successful `openPort`. -/
def openPort (state : PortMappings) (object : Nat) (mapper : UPnPMapper) (port : UInt16)
    (proto : Proto) : PortMappings :=
  let owner := state.nextOwner + 1
  let target : PortMapping := { controlURL := mapper.controlURL, port, proto }
  { shared := {
      mappingOwners := state.shared.mappingOwners.insert target.key owner
      router := Function.update state.shared.router target true }
    nextOwner := owner
    mappers := Function.update state.mappers object
      (.alive { mapper with mappings := mapper.mappings ++ [{ port, proto, owner }] })
    opened := Function.update state.opened target (some object) }

/-- `~UPnPMapper`, with every deletion successful. -/
def destroy (state : PortMappings) (object : Nat) (mapper : UPnPMapper) : PortMappings :=
  { state with
    shared := mapper.mappings.foldl (SharedPorts.release mapper) state.shared
    mappers := Function.update state.mappers object .destroyed }

end PortMappings

inductive PortEvent where
  | discover (object : Nat) (controlURL : Bytes)
  | openPort (object : Nat) (port : UInt16) (proto : Proto)
  | destroy (object : Nat)
deriving DecidableEq, Repr

def PortMappings.step (state : PortMappings) : PortEvent → Option PortMappings
  | .discover object controlURL =>
      if state.mappers object = .unborn then
        some { state with
          mappers := Function.update state.mappers object (.alive { controlURL }) }
      else none
  | .openPort object port proto =>
      match state.mappers object with
      | .alive mapper => some (state.openPort object mapper port proto)
      | _ => none
  | .destroy object =>
      match state.mappers object with
      | .alive mapper => some (state.destroy object mapper)
      | _ => none

/-- The mapping that a successful call of `openPort` asks the router for, and the object. -/
def PortMappings.opens (state : PortMappings) : PortEvent → List (PortMapping × Nat)
  | .openPort object port proto =>
      match state.mappers object with
      | .alive mapper => [({ controlURL := mapper.controlURL, port, proto }, object)]
      | _ => []
  | _ => []

/-- Whose call was the last for a mapping. -/
def lastOpener (calls : List (PortMapping × Nat)) (target : PortMapping) : Option Nat :=
  (calls.reverse.find? fun call => call.1 = target).map Prod.snd

section Keys

theorem Proto.text_injective {a b : Proto} (same : a.text = b.text) : a = b := by
  revert same
  cases a <;> cases b <;> decide

/-- Only the part of the address may have a bar. -/
theorem PortMapping.key_injective : Function.Injective PortMapping.key := by
  intro a b same
  have plain (proto : Proto) : (124 : UInt8) ∉ proto.text.reverse := by cases proto <;> decide
  have digits (n : Nat) : (124 : UInt8) ∉ (toDecimal n).reverse := fun mem =>
    not_mem_toDecimal (by decide) (List.mem_reverse.mp mem)
  have backwards (mapping : PortMapping) : mapping.key.reverse = mapping.proto.text.reverse ++
      124 :: ((toDecimal mapping.port.toNat).reverse ++ 124 :: mapping.controlURL.reverse) := by
    have bar : (ascii "|").reverse = [124] := rfl
    simp only [key, List.reverse_append, bar, List.append_assoc, List.cons_append,
      List.nil_append]
  have reversed := congrArg List.reverse same
  rw [backwards, backwards] at reversed
  obtain ⟨proto, rest⟩ := first_delimiter_unique (plain _) (plain _) reversed
  obtain ⟨port, url⟩ := first_delimiter_unique (digits _) (digits _) rest
  have number := UInt16.toNat_inj.mp (toDecimal_injective (List.reverse_injective port))
  have name := Proto.text_injective (List.reverse_injective proto)
  exact PortMapping.ext (List.reverse_injective url) number name

end Keys

section Release

variable {mapper : UPnPMapper} {shared : SharedPorts} {mapping : OwnedPort}

/-- The owner in the table, zero where there is none. -/
def SharedPorts.held (shared : SharedPorts) (target : PortMapping) : Nat :=
  shared.mappingOwners[target.key]?.getD 0

/-- A released mapping disappears when the table still has its owner; nothing else does. -/
theorem release_cases (target : PortMapping) :
    (mapper.target mapping = target ∧ shared.held target = mapping.owner ∧
        (shared.release mapper mapping).router target = false ∧
        (shared.release mapper mapping).held target = 0) ∨
      (¬ (mapper.target mapping = target ∧ shared.held target = mapping.owner) ∧
        (shared.release mapper mapping).router target = shared.router target ∧
        (shared.release mapper mapping).held target = shared.held target) := by
  have looked : (shared.mappingOwners.insertIfNew (mapper.target mapping).key
      0)[(mapper.target mapping).key]? = some (shared.held (mapper.target mapping)) := by
    rw [OrderedMap.getElem?_insertIfNew, if_pos rfl]
    rfl
  have zero : ((shared.mappingOwners.insertIfNew (mapper.target mapping).key
      0)[target.key]?).getD 0 = shared.held target := by
    rw [OrderedMap.getElem?_insertIfNew, SharedPorts.held]
    split
    · rfl
    · rfl
  unfold SharedPorts.release
  simp only [looked]
  by_cases own : shared.held (mapper.target mapping) = mapping.owner
  · rw [if_neg (by simpa using own)]
    by_cases same : mapper.target mapping = target
    · subst same
      refine .inl ⟨rfl, own, Function.update_self _ _ _, ?_⟩
      simp [SharedPorts.held]
    · have key : (mapper.target mapping).key ≠ target.key :=
        fun e => same (PortMapping.key_injective e)
      refine .inr ⟨fun both => same both.1, Function.update_of_ne (Ne.symm same) _ _, ?_⟩
      rw [← zero, SharedPorts.held, Std.ExtTreeMap.getElem?_erase, if_neg (by simpa using key)]
  · rw [if_pos (by simpa using own)]
    refine .inr ⟨?_, rfl, zero⟩
    rintro ⟨rfl, equal⟩
    exact own equal

/-- The destructor's loop: what the table still has for one of the mappings disappears. -/
theorem releaseAll_cases {mappings : List OwnedPort} (target : PortMapping) :
    ((∃ mapping ∈ mappings, mapper.target mapping = target ∧ shared.held target = mapping.owner) ∧
        (mappings.foldl (SharedPorts.release mapper) shared).router target = false ∧
        (mappings.foldl (SharedPorts.release mapper) shared).held target = 0) ∨
      ((¬ ∃ mapping ∈ mappings, mapper.target mapping = target ∧
          shared.held target = mapping.owner) ∧
        (mappings.foldl (SharedPorts.release mapper) shared).router target =
          shared.router target ∧
        (mappings.foldl (SharedPorts.release mapper) shared).held target =
          shared.held target) := by
  induction mappings generalizing shared with
  | nil => exact .inr ⟨by simp, rfl, rfl⟩
  | cons mapping mappings ih =>
      rw [List.foldl_cons]
      obtain ⟨same, own, gone, zero⟩ | ⟨other, router, held⟩ :=
        @release_cases mapper shared mapping target
      · refine .inl ⟨⟨mapping, List.mem_cons_self, same, own⟩, ?_⟩
        obtain ⟨-, gone', zero'⟩ | ⟨-, router, held⟩ := @ih (shared.release mapper mapping)
        · exact ⟨gone', zero'⟩
        · exact ⟨router.trans gone, held.trans zero⟩
      · obtain ⟨⟨found, mem, same, own⟩, gone⟩ | ⟨none, router', held'⟩ :=
          @ih (shared.release mapper mapping)
        · exact .inl ⟨⟨found, List.mem_cons_of_mem mapping mem, same, held ▸ own⟩, gone⟩
        · refine .inr ⟨?_, router'.trans router, held'.trans held⟩
          rintro ⟨found, mem, same, own⟩
          obtain rfl | mem := List.mem_cons.mp mem
          · exact other ⟨same, own⟩
          · exact none ⟨found, mem, same, held.trans own⟩

end Release

namespace PortMappings

variable {state state' : PortMappings} {object : Nat} {mapper : UPnPMapper} {target : PortMapping}
  {event : PortEvent}

/-- The object that opened the mapping last is alive, and has it under the owner that the
table has. -/
def Held (state : PortMappings) (target : PortMapping) : Prop :=
  ∃ object mapper mapping, state.opened target = some object ∧
    state.mappers object = .alive mapper ∧ mapping ∈ mapper.mappings ∧
    mapper.target mapping = target ∧ mapping.owner = state.shared.held target ∧
    state.shared.router target = true

/-- The object that opened the mapping last, if anyone did, is gone, and so is the mapping. -/
def Free (state : PortMappings) (target : PortMapping) : Prop :=
  (∀ object, state.opened target = some object → state.mappers object = .destroyed) ∧
    state.shared.held target = 0 ∧ state.shared.router target = false

/-- Owners are numbered one after the other, so that no two mappings have the same. -/
structure Owned (state : PortMappings) : Prop where
  bound : ∀ object mapper, state.mappers object = .alive mapper → ∀ mapping ∈ mapper.mappings,
    0 < mapping.owner ∧ mapping.owner ≤ state.nextOwner
  unique : ∀ object mapper object' mapper', state.mappers object = .alive mapper →
    state.mappers object' = .alive mapper' → ∀ mapping ∈ mapper.mappings,
      ∀ mapping' ∈ mapper'.mappings, mapping.owner = mapping'.owner →
        object = object' ∧ mapping = mapping'
  known : ∀ target, state.Held target ∨ state.Free target

section Steps

/-- All that a step can be. -/
theorem step_cases (h : PortMappings.step state event = some state') :
    (∃ object controlURL, event = .discover object controlURL ∧ state.mappers object = .unborn ∧
      state.opens event = [] ∧
      state' = { state with
        mappers := Function.update state.mappers object (.alive { controlURL }) }) ∨
    (∃ object port proto mapper, event = .openPort object port proto ∧
      state.mappers object = .alive mapper ∧
      state.opens event = [({ controlURL := mapper.controlURL, port, proto }, object)] ∧
      state' = state.openPort object mapper port proto) ∨
    (∃ object mapper, event = .destroy object ∧ state.mappers object = .alive mapper ∧
      state.opens event = [] ∧ state' = state.destroy object mapper) := by
  cases event with
  | discover object controlURL =>
      simp only [PortMappings.step, Option.ite_none_right_eq_some] at h
      exact .inl ⟨object, controlURL, rfl, h.1, rfl, (Option.some.inj h.2).symm⟩
  | openPort object port proto =>
      simp only [PortMappings.step] at h
      split at h
      · next mapper alive =>
          refine .inr (.inl ⟨object, port, proto, mapper, rfl, alive, ?_,
            (Option.some.inj h).symm⟩)
          rw [opens, alive]
      · cases h
  | destroy object =>
      simp only [PortMappings.step] at h
      split at h
      · next mapper alive =>
          exact .inr (.inr ⟨object, mapper, rfl, alive, rfl, (Option.some.inj h).symm⟩)
      · cases h

theorem mappers_update {value : MapperObject} {object' : Nat} {mapper' : UPnPMapper}
    (h : Function.update state.mappers object value object' = .alive mapper') :
    object' = object ∧ value = .alive mapper' ∨
      object' ≠ object ∧ state.mappers object' = .alive mapper' := by
  by_cases same : object' = object
  · subst same
    rw [Function.update_self] at h
    exact .inl ⟨rfl, h⟩
  · rw [Function.update_of_ne same] at h
    exact .inr ⟨same, h⟩

theorem Owned.discover (owned : Owned state) (unborn : state.mappers object = .unborn)
    (controlURL : Bytes) :
    Owned { state with
      mappers := Function.update state.mappers object (.alive { controlURL }) } where
  bound object' mapper' alive mapping mem := by
    obtain ⟨-, fresh⟩ | ⟨-, before⟩ := mappers_update alive
    · obtain rfl := MapperObject.alive.inj fresh
      cases mem
    · exact owned.bound object' mapper' before mapping mem
  unique a mapperA b mapperB aliveA aliveB x memX y memY same := by
    obtain ⟨-, fresh⟩ | ⟨-, beforeA⟩ := mappers_update aliveA
    · obtain rfl := MapperObject.alive.inj fresh
      cases memX
    · obtain ⟨-, fresh⟩ | ⟨-, beforeB⟩ := mappers_update aliveB
      · obtain rfl := MapperObject.alive.inj fresh
        cases memY
      · exact owned.unique a mapperA b mapperB beforeA beforeB x memX y memY same
  known target := by
    obtain ⟨other, mapper, mapping, opened, alive, rest⟩ | ⟨gone, free⟩ := owned.known target
    · have ne : other ≠ object := by
        rintro rfl
        rw [unborn] at alive
        cases alive
      exact .inl ⟨other, mapper, mapping, opened, (Function.update_of_ne ne _ _).trans alive, rest⟩
    · refine .inr ⟨fun other opened => ?_, free⟩
      have destroyed := gone other opened
      have ne : other ≠ object := by
        rintro rfl
        rw [unborn] at destroyed
        cases destroyed
      exact (Function.update_of_ne ne _ _).trans destroyed

theorem Owned.openPort (owned : Owned state) (alive : state.mappers object = .alive mapper)
    (port : UInt16) (proto : Proto) : Owned (state.openPort object mapper port proto) where
  bound object' mapper' alive' mapping mem := by
    obtain ⟨-, fresh⟩ | ⟨-, before⟩ := mappers_update alive'
    · obtain rfl := MapperObject.alive.inj fresh
      obtain mem | mem := List.mem_append.mp mem
      · have := owned.bound object mapper alive mapping mem
        exact ⟨this.1, Nat.le_succ_of_le this.2⟩
      · obtain rfl := List.mem_singleton.mp mem
        exact ⟨Nat.succ_pos _, Nat.le_refl _⟩
    · have := owned.bound object' mapper' before mapping mem
      exact ⟨this.1, Nat.le_succ_of_le this.2⟩
  unique a mapperA b mapperB aliveA aliveB x memX y memY same := by
    -- A mapping of before, or the new one, whose owner is above all others.
    have origin {c : Nat} {mapperC : UPnPMapper} {z : OwnedPort}
        (aliveC : (state.openPort object mapper port proto).mappers c = .alive mapperC)
        (memZ : z ∈ mapperC.mappings) :
        (∃ mapperC', state.mappers c = .alive mapperC' ∧ z ∈ mapperC'.mappings) ∨
          c = object ∧ z = ⟨port, proto, state.nextOwner + 1⟩ := by
      obtain ⟨rfl, fresh⟩ | ⟨-, before⟩ := mappers_update aliveC
      · obtain rfl := MapperObject.alive.inj fresh
        obtain mem | mem := List.mem_append.mp memZ
        · exact .inl ⟨mapper, alive, mem⟩
        · exact .inr ⟨rfl, List.mem_singleton.mp mem⟩
      · exact .inl ⟨mapperC, before, memZ⟩
    obtain ⟨mapperA', beforeA, memX⟩ | ⟨rfl, rfl⟩ := origin aliveA memX
    · obtain ⟨mapperB', beforeB, memY⟩ | ⟨rfl, rfl⟩ := origin aliveB memY
      · exact owned.unique a mapperA' b mapperB' beforeA beforeB x memX y memY same
      · have := (owned.bound a mapperA' beforeA x memX).2
        simp only at same
        omega
    · obtain ⟨mapperB', beforeB, memY⟩ | ⟨rfl, rfl⟩ := origin aliveB memY
      · have := (owned.bound b mapperB' beforeB y memY).2
        simp only at same
        omega
      · exact ⟨rfl, rfl⟩
  known target := by
    by_cases same : target = { controlURL := mapper.controlURL, port, proto }
    · subst same
      refine .inl ⟨object, { mapper with mappings := mapper.mappings ++
        [⟨port, proto, state.nextOwner + 1⟩] }, ⟨port, proto, state.nextOwner + 1⟩,
        Function.update_self _ _ _, Function.update_self _ _ _, by simp, rfl, ?_,
        Function.update_self _ _ _⟩
      simp [PortMappings.openPort, SharedPorts.held]
    · have key : ¬ PortMapping.key { controlURL := mapper.controlURL, port, proto } = target.key :=
        fun e => same (PortMapping.key_injective e).symm
      have held : (state.openPort object mapper port proto).shared.held target =
          state.shared.held target := by
        rw [SharedPorts.held, PortMappings.openPort, OrderedMap.getElem?_insert, if_neg key]
        rfl
      have router : (state.openPort object mapper port proto).shared.router target =
          state.shared.router target := Function.update_of_ne same _ _
      have kept : (state.openPort object mapper port proto).opened target =
          state.opened target := Function.update_of_ne same _ _
      rw [Held, Free, held, router, kept]
      obtain ⟨other, mapper', mapping, opened, alive', mem, rest⟩ | ⟨gone, free⟩ :=
        owned.known target
      · by_cases self : other = object
        · subst self
          obtain rfl := MapperObject.alive.inj (alive'.symm.trans alive)
          exact .inl ⟨other, _, mapping, opened, Function.update_self _ _ _,
            List.mem_append_left _ mem, rest⟩
        · exact .inl ⟨other, mapper', mapping, opened,
            (Function.update_of_ne self _ _).trans alive', mem, rest⟩
      · refine .inr ⟨fun other opened => ?_, free⟩
        have destroyed := gone other opened
        have ne : other ≠ object := by
          rintro rfl
          rw [alive] at destroyed
          cases destroyed
        exact (Function.update_of_ne ne _ _).trans destroyed

/-- What an object leaves behind: the mappings that it was not the last to open. -/
theorem Owned.destroy_cases (owned : Owned state) (alive : state.mappers object = .alive mapper)
    (target : PortMapping) :
    (state.opened target = some object ∧
        (state.destroy object mapper).shared.router target = false ∧
        (state.destroy object mapper).shared.held target = 0) ∨
      (state.opened target ≠ some object ∧
        (state.destroy object mapper).shared.router target = state.shared.router target ∧
        (state.destroy object mapper).shared.held target = state.shared.held target) := by
  obtain ⟨⟨mapping, mem, same, own⟩, gone⟩ | ⟨none, kept⟩ :=
    @releaseAll_cases mapper state.shared mapper.mappings target
  · refine .inl ⟨?_, gone⟩
    have positive := (owned.bound object mapper alive mapping mem).1
    obtain ⟨other, mapper', mapping', opened, alive', mem', -, own', -⟩ | ⟨-, zero, -⟩ :=
      owned.known target
    · obtain ⟨rfl, -⟩ := owned.unique object mapper other mapper' alive alive' mapping mem
        mapping' mem' (own.symm.trans own'.symm)
      exact opened
    · omega
  · refine .inr ⟨fun opened => ?_, kept⟩
    obtain ⟨other, mapper', mapping', opened', alive', mem', same, own', -⟩ | ⟨gone, -, -⟩ :=
      owned.known target
    · obtain rfl := Option.some.inj (opened.symm.trans opened')
      obtain rfl := MapperObject.alive.inj (alive.symm.trans alive')
      exact none ⟨mapping', mem', same, own'.symm⟩
    · rw [gone object opened] at alive
      cases alive

theorem Owned.destroy (owned : Owned state) (alive : state.mappers object = .alive mapper) :
    Owned (state.destroy object mapper) where
  bound object' mapper' alive' mapping mem := by
    obtain ⟨-, fresh⟩ | ⟨-, before⟩ := mappers_update alive'
    · cases fresh
    · exact owned.bound object' mapper' before mapping mem
  unique a mapperA b mapperB aliveA aliveB x memX y memY same := by
    obtain ⟨-, fresh⟩ | ⟨-, beforeA⟩ := mappers_update aliveA
    · cases fresh
    · obtain ⟨-, fresh⟩ | ⟨-, beforeB⟩ := mappers_update aliveB
      · cases fresh
      · exact owned.unique a mapperA b mapperB beforeA beforeB x memX y memY same
  known target := by
    obtain ⟨opened, router, held⟩ | ⟨opened, router, held⟩ := owned.destroy_cases alive target
    · refine .inr ⟨fun other opened' => ?_, held, router⟩
      obtain rfl := Option.some.inj (opened.symm.trans opened')
      exact Function.update_self _ _ _
    · rw [Held, Free, held, router]
      obtain ⟨other, mapper', mapping, opened', alive', rest⟩ | ⟨gone, free⟩ := owned.known target
      · have ne : other ≠ object := fun e => opened (e ▸ opened')
        exact .inl ⟨other, mapper', mapping, opened', (Function.update_of_ne ne _ _).trans alive',
          rest⟩
      · refine .inr ⟨fun other opened' => ?_, free⟩
        have ne : other ≠ object := fun e => opened (e ▸ opened')
        exact (Function.update_of_ne ne _ _).trans (gone other opened')

theorem Owned.step (owned : Owned state) (h : step state event = some state') : Owned state' := by
  obtain ⟨object, controlURL, rfl, unborn, -, rfl⟩ |
    ⟨object, port, proto, mapper, rfl, alive, -, rfl⟩ |
    ⟨object, mapper, rfl, alive, -, rfl⟩ := step_cases h
  · exact owned.discover unborn controlURL
  · exact owned.openPort alive port proto
  · exact owned.destroy alive

end Steps

theorem owned_start : Owned {} where
  bound _ _ alive := nomatch alive
  unique _ _ _ _ alive := nomatch alive
  known _ := .inr ⟨nofun, rfl, rfl⟩

theorem run_owned {events : List PortEvent} (h : Run.run step {} events = some state) :
    Owned state :=
  Run.run_invariant (fun _ _ _ owned stepped => owned.step stepped) h owned_start

section Calls

variable {calls : List (PortMapping × Nat)} {events : List PortEvent}

theorem lastOpener_snoc (opened : PortMapping) (object : Nat) :
    lastOpener (calls ++ [(opened, object)]) target =
      if opened = target then some object else lastOpener calls target := by
  by_cases same : opened = target
  · simp [lastOpener, same]
  · simp [lastOpener, same]

theorem step_opened (known : ∀ target, state.opened target = lastOpener calls target)
    (h : step state event = some state') (target : PortMapping) :
    state'.opened target = lastOpener (calls ++ state.opens event) target := by
  obtain ⟨object, controlURL, -, -, silent, rfl⟩ |
    ⟨object, port, proto, mapper, -, -, opening, rfl⟩ |
    ⟨object, mapper, -, -, silent, rfl⟩ := step_cases h
  · rw [silent, List.append_nil]
    exact known target
  · simp only [opening, lastOpener_snoc, PortMappings.openPort]
    by_cases same : PortMapping.mk mapper.controlURL port proto = target
    · rw [if_pos same, same, Function.update_self]
    · rw [if_neg same, Function.update_of_ne (Ne.symm same)]
      exact known target
  · rw [silent, List.append_nil]
    exact known target

theorem run_opened (h : Run.run step {} events = some state) (target : PortMapping) :
    state.opened target = lastOpener (Run.outputs step opens {} events) target := by
  have keeps (a : PortMappings) (calls : List (PortMapping × Nat)) (event : PortEvent)
      (b : PortMappings) (known : ∀ target, a.opened target = lastOpener calls target)
      (stepped : step a event = some b) :
      ∀ target, b.opened target = lastOpener (calls ++ a.opens event) target :=
    step_opened known stepped
  have start (target : PortMapping) : ({} : PortMappings).opened target = lastOpener [] target :=
    rfl
  exact Run.run_outputs keeps h start target

/-- An object is gone from its destruction on, and there from its discovery on. -/
theorem step_mappers (h : step state event = some state') (object : Nat) :
    (state'.mappers object = .destroyed ↔
      state.mappers object = .destroyed ∨ event = .destroy object) ∧
    (state'.mappers object ≠ .unborn →
      state.mappers object ≠ .unborn ∨ ∃ controlURL, event = .discover object controlURL) := by
  obtain ⟨other, controlURL, rfl, unborn, -, rfl⟩ |
    ⟨other, port, proto, mapper, rfl, alive, -, rfl⟩ |
    ⟨other, mapper, rfl, alive, -, rfl⟩ := step_cases h
  · by_cases same : object = other
    · subst same
      simp [unborn]
    · simp only [ne_eq, Function.update_of_ne same, reduceCtorEq, or_false, true_and]
      exact .inl
  · by_cases same : object = other
    · subst same
      simp [PortMappings.openPort, alive]
    · simp [PortMappings.openPort, Function.update_of_ne same]
  · by_cases same : object = other
    · subst same
      simp [PortMappings.destroy, alive]
    · simp [PortMappings.destroy, Function.update_of_ne same, Ne.symm same]

theorem run_mappers (h : Run.run step {} events = some state) (object : Nat) :
    (state.mappers object = .destroyed ↔ .destroy object ∈ events) ∧
    (state.mappers object ≠ .unborn → ∃ controlURL, .discover object controlURL ∈ events) := by
  induction events using List.reverseRecOn generalizing state with
  | nil =>
      obtain rfl := Option.some.inj h
      exact ⟨⟨(fun gone => by cases gone), fun mem => absurd mem List.not_mem_nil⟩,
        fun born => absurd rfl born⟩
  | append_singleton events event ih =>
      obtain ⟨before, run, stepped⟩ := Run.run_snoc.mp h
      obtain ⟨gone, there⟩ := ih run
      obtain ⟨goes, comes⟩ := step_mappers stepped object
      constructor
      · rw [goes, gone, List.mem_append, List.mem_singleton, eq_comm]
      · intro born
        obtain born | ⟨controlURL, rfl⟩ := comes born
        · exact (there born).imp fun controlURL mem => List.mem_append_left _ mem
        · exact ⟨controlURL, by simp⟩

end Calls

/-- The owners are numbered by the calls, so that 64 bits hold them as long as there are fewer
than `2 ^ 64` of these. -/
theorem run_nextOwner {events : List PortEvent} (h : Run.run step {} events = some state) :
    state.nextOwner = (Run.outputs step opens {} events).length := by
  have keeps (a : PortMappings) (calls : List (PortMapping × Nat)) (event : PortEvent)
      (b : PortMappings) (counted : a.nextOwner = calls.length)
      (stepped : step a event = some b) : b.nextOwner = (calls ++ a.opens event).length := by
    rw [List.length_append, ← counted]
    obtain ⟨_, _, -, -, silent, rfl⟩ | ⟨_, _, _, _, -, -, opening, rfl⟩ |
      ⟨_, _, -, -, silent, rfl⟩ := step_cases stepped
    · rw [silent]
      rfl
    · rw [opening]
      rfl
    · rw [silent]
      rfl
  exact Run.run_outputs keeps h rfl

theorem run_owners_fit {events : List PortEvent} (h : Run.run step {} events = some state)
    (few : (Run.outputs step opens {} events).length < 2 ^ 64) {mapping : OwnedPort}
    (alive : state.mappers object = .alive mapper) (mem : mapping ∈ mapper.mappings) :
    (UInt64.ofNat mapping.owner).toNat = mapping.owner := by
  have bound := ((run_owned h).bound object mapper alive mapping mem).2
  rw [run_nextOwner h] at bound
  rw [UInt64.toNat_ofNat']
  omega

/-- The mapper whose call for the mapping was the last has not been destroyed. -/
def OpenerAlive (events : List PortEvent) (target : PortMapping) : Prop :=
  ∃ object, lastOpener (Run.outputs step opens {} events) target = some object ∧
    .destroy object ∉ events

theorem run_router {events : List PortEvent} (h : Run.run step {} events = some state)
    (target : PortMapping) : state.shared.router target = true ↔ OpenerAlive events target := by
  have owned := run_owned h
  have opened := run_opened h target
  constructor
  · intro mapped
    obtain ⟨object, mapper, -, last, alive, -⟩ | ⟨-, -, free⟩ := owned.known target
    · refine ⟨object, opened.symm.trans last, fun destroyed => ?_⟩
      rw [(run_mappers h object).1.mpr destroyed] at alive
      cases alive
    · rw [mapped] at free
      cases free
  · rintro ⟨object, last, alive⟩
    obtain ⟨-, -, -, -, -, -, -, -, mapped⟩ | ⟨gone, -⟩ := owned.known target
    · exact mapped
    · exact absurd ((run_mappers h object).1.mp (gone object (opened.trans last))) alive

/-- A port stays mapped for exactly as long as the mapper that opened it last is there: an
older mapper goes without taking the mapping of a later one along, and the last one to go
leaves none. -/
theorem run_mapped {events : List PortEvent} (h : Run.run step {} events = some state) :
    (∀ target, state.shared.router target = true ↔ OpenerAlive events target) ∧
      (∀ object state', step state (.destroy object) = some state' → ∀ target,
        lastOpener (Run.outputs step opens {} events) target ≠ some object →
          state'.shared.router target = state.shared.router target) ∧
      ((∀ object controlURL, .discover object controlURL ∈ events → .destroy object ∈ events) →
        ∀ target, state.shared.router target = false) := by
  have owned := run_owned h
  refine ⟨run_router h, fun object state' stepped target later => ?_, fun all target => ?_⟩
  · simp only [PortMappings.step] at stepped
    split at stepped
    · next mapper alive =>
        obtain rfl := Option.some.inj stepped
        obtain ⟨last, -⟩ | ⟨-, router, -⟩ := owned.destroy_cases alive target
        · exact absurd ((run_opened h target).symm.trans last) later
        · exact router
    · cases stepped
  · refine Bool.eq_false_iff.mpr fun mapped => ?_
    obtain ⟨object, mapper, -, -, alive, -⟩ | ⟨-, -, free⟩ := owned.known target
    · obtain ⟨controlURL, discovered⟩ := (run_mappers h object).2 (by simp [alive])
      rw [(run_mappers h object).1.mpr (all object controlURL discovered)] at alive
      cases alive
    · rw [mapped] at free
      cases free

def twoMappers : List PortEvent :=
  [.discover 0 (ascii "http://10.0.0.1/ctl"), .discover 1 (ascii "http://10.0.0.1/ctl"),
    .openPort 0 5555 .tcp, .openPort 1 5555 .tcp, .destroy 0]

/-- Two mappers open the same port. It stays when the older one goes, and goes with the other. -/
theorem run_mapped_older :
    (∃ state, Run.run step {} twoMappers = some state ∧
      state.shared.router ⟨ascii "http://10.0.0.1/ctl", 5555, .tcp⟩ = true) ∧
    ∃ state, Run.run step {} (twoMappers ++ [.destroy 1]) = some state ∧
      ∀ target, state.shared.router target = false := by
  constructor
  · exact ⟨_, rfl, ((@run_mapped _ twoMappers rfl).1 _).mpr ⟨1, by decide +kernel, by decide⟩⟩
  · refine ⟨_, rfl, (@run_mapped _ (twoMappers ++ [.destroy 1]) rfl).2.2 ?_⟩
    intro object controlURL discovered
    simp only [twoMappers, List.cons_append, List.nil_append, List.mem_cons,
      PortEvent.discover.injEq, reduceCtorEq, false_or, or_false, List.not_mem_nil] at discovered ⊢
    obtain ⟨rfl, -⟩ | ⟨rfl, -⟩ := discovered
    · simp
    · simp

end PortMappings

end Chatbox.Network
