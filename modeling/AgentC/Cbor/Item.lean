import AgentC.Foundation.ByteOrder

/-! # Values

The JSON values that the CBOR encoders and the decoder of the daemon work on.
Objects are kept as lists of members; a `std::map` keeps them sorted. -/

namespace AgentC.Cbor

/-- A number that fits `int64_t` or `uint64_t`. -/
structure Integer64 where
  value : Int
  lower : -2 ^ 63 ≤ value
  upper : value < 2 ^ 64
deriving DecidableEq

inductive Item
  | null
  | bool (value : Bool)
  | integer (number : Integer64)
  /-- A double, as its 64 bits. -/
  | real (bits : UInt64)
  | string (text : Bytes)
  | array (items : List Item)
  | object (members : List (Bytes × Item))

theorem Item.inductionOn {motive : Item → Prop} (item : Item) (null : motive .null)
    (bool : ∀ value, motive (.bool value)) (integer : ∀ number, motive (.integer number))
    (real : ∀ bits, motive (.real bits)) (string : ∀ text, motive (.string text))
    (array : ∀ items, (∀ item ∈ items, motive item) → motive (.array items))
    (object : ∀ members : List (Bytes × Item),
      (∀ member ∈ members, motive member.2) → motive (.object members)) : motive item := by
  refine @Item.rec motive (fun items => ∀ item ∈ items, motive item)
    (fun members => ∀ member ∈ members, motive member.2) (fun member => motive member.2)
    null bool integer real string array object ?_ ?_ ?_ ?_ (fun _ _ value => value) item
  · exact fun _ member => nomatch member
  · intro first rest firstHolds restHold
    exact List.forall_mem_cons.mpr ⟨firstHolds, restHold⟩
  · exact fun _ member => nomatch member
  · intro first rest firstHolds restHold
    exact List.forall_mem_cons.mpr ⟨firstHolds, restHold⟩

def majorUint : UInt8 := 0x00
def majorNegative : UInt8 := 0x20
def majorText : UInt8 := 0x60
def majorArray : UInt8 := 0x80
def majorMap : UInt8 := 0xa0

theorem toNat_or {major : UInt8} (shifted : major.toNat % 32 = 0) {ai : Nat} (small : ai < 32) :
    (major ||| UInt8.ofNat ai).toNat = major.toNat + ai := by
  have split : major.toNat = 2 ^ 5 * (major.toNat / 32) := by omega
  rw [UInt8.toNat_or, UInt8.toNat_ofNat', Nat.mod_eq_of_lt (show ai < 2 ^ 8 by omega), split,
    Nat.two_pow_add_eq_or_of_lt (show ai < 2 ^ 5 by omega)]

mutual

def Item.Every (length : Nat → Prop) (keys : List Bytes → Prop) : Item → Prop
  | .array items => length items.length ∧ EveryItem length keys items
  | .object members => keys (members.map Prod.fst) ∧ EveryMember length keys members
  | .null => True
  | .bool _ => True
  | .integer _ => True
  | .real _ => True
  | .string _ => True

def EveryItem (length : Nat → Prop) (keys : List Bytes → Prop) : List Item → Prop
  | [] => True
  | item :: rest => item.Every length keys ∧ EveryItem length keys rest

def EveryMember (length : Nat → Prop) (keys : List Bytes → Prop) : List (Bytes × Item) → Prop
  | [] => True
  | (_, value) :: rest => value.Every length keys ∧ EveryMember length keys rest

end

mutual

def Item.height : Item → Nat
  | .array items => heightOfItems items + 1
  | .object members => heightOfMembers members + 1
  | .null => 0
  | .bool _ => 0
  | .integer _ => 0
  | .real _ => 0
  | .string _ => 0

def heightOfItems : List Item → Nat
  | [] => 0
  | item :: rest => max item.height (heightOfItems rest)

def heightOfMembers : List (Bytes × Item) → Nat
  | [] => 0
  | (_, value) :: rest => max value.height (heightOfMembers rest)

end

variable {length : Nat → Prop} {keys : List Bytes → Prop}

theorem everyItem_iff {items : List Item} :
    EveryItem length keys items ↔ ∀ item ∈ items, item.Every length keys := by
  induction items with
  | nil => simp [EveryItem]
  | cons item rest induction => simp [EveryItem, induction]

variable {members : List (Bytes × Item)}

theorem everyMember_iff :
    EveryMember length keys members ↔ ∀ member ∈ members, member.2.Every length keys := by
  induction members with
  | nil => simp [EveryMember]
  | cons member rest induction => simp [EveryMember, induction]

theorem height_le_of_mem_items {items : List Item} {item : Item} (member : item ∈ items) :
    item.height ≤ heightOfItems items := by
  induction items with
  | nil => exact nomatch member
  | cons first rest induction =>
    rw [heightOfItems]
    rcases List.mem_cons.mp member with equal | later
    · rw [equal]
      exact Nat.le_max_left ..
    · exact (induction later).trans (Nat.le_max_right ..)

theorem height_le_of_mem_members {member : Bytes × Item} (isMember : member ∈ members) :
    member.2.height ≤ heightOfMembers members := by
  induction members with
  | nil => exact nomatch isMember
  | cons first rest induction =>
    rw [heightOfMembers]
    rcases List.mem_cons.mp isMember with equal | later
    · rw [equal]
      exact Nat.le_max_left ..
    · exact (induction later).trans (Nat.le_max_right ..)

end AgentC.Cbor
