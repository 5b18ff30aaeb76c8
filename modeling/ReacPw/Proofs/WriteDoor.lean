/-
One write of the door is three, in any order.

Each reader of a Props object walks all of its pairs, and answers by those under its own
keys alone.  What the three answers touch of the node is apart.  So a write is the same as
three that carry one reader's pairs each, whichever comes first (`write_door_split`): how a
console interleaves the controls it sets at once, and what else it sends with them, decides
nothing.
-/
import ReacPw.WriteDoor
import ReacPw.Proofs.HeadampProp

namespace ReacPw

/-! ### The pairs a reader answers by -/

/-- The readers of the door. -/
inductive DoorPart where
  | headamp
  | rate
  | role
  deriving DecidableEq, Repr

/-- A key is the reader's. -/
def DoorPart.owns (k : String) : DoorPart → Bool
  | .headamp => headampPrefix.isPrefixOf k.toList
  | .rate => k == "reac.cfg.rate"
  | .role => k == "reac.cfg.role"

theorem DoorPart.owns_unique {k : String} {part part' : DoorPart} (h : part.owns k = true)
    (h' : part'.owns k = true) : part = part' := by
  cases part <;> cases part' <;> simp only [DoorPart.owns, beq_iff_eq] at h h' <;>
    first
    | rfl
    | (subst h; revert h'; decide)
    | (subst h'; revert h; decide)

/-- The reader's pairs of a struct. -/
def DoorPart.pairs (part : DoorPart) (pods : List ParamPod) : List (String × ParamPod) :=
  (propPairs none pods).filter fun pair => part.owns pair.1

/-- Pairs, as a struct. -/
def packed (pairs : List (String × ParamPod)) : List ParamPod :=
  pairs.flatMap fun pair => [.str pair.1, pair.2]

/-- The write that carries one reader's pairs. -/
def partOf (part : DoorPart) (pods : List ParamPod) : PropsPod := .params (packed (part.pairs pods))

theorem propPairs_packed (pairs : List (String × ParamPod)) :
    propPairs none (packed pairs) = pairs := by
  induction pairs with
  | nil => rfl
  | cons pair pairs ih =>
      rw [packed, List.flatMap_cons, List.cons_append, List.cons_append, List.nil_append,
        propPairs, propPairs, ← packed, ih]

/-- Of one reader's pairs, another's are none. -/
theorem pairs_packed (part part' : DoorPart) (pods : List ParamPod) :
    part'.pairs (packed (part.pairs pods)) = if part' = part then part.pairs pods else [] := by
  rw [DoorPart.pairs, propPairs_packed, DoorPart.pairs, List.filter_filter]
  by_cases hpart : part' = part
  · subst hpart
    simp
  · rw [if_neg hpart, List.filter_eq_nil_iff]
    intro pair _ howned
    rw [Bool.and_eq_true] at howned
    exact hpart (DoorPart.owns_unique howned.1 howned.2)

/-- The value of the first pair with that key. -/
def firstValue (k : String) (pairs : List (String × ParamPod)) : Option ParamPod :=
  (pairs.find? fun pair => pair.1 == k).map (·.2)

theorem firstValue_filter (k : String) (pairs : List (String × ParamPod)) :
    firstValue k (pairs.filter fun pair => pair.1 == k) = firstValue k pairs := by
  unfold firstValue
  rw [List.find?_filter]
  simp only [and_self, Bool.decide_eq_true]

theorem firstValue_here (k : String) (value : ParamPod) (pairs : List (String × ParamPod)) :
    firstValue k ((k, value) :: pairs) = some value := by
  simp [firstValue]

theorem firstValue_other {k key : String} (hother : key ≠ k) (value : ParamPod)
    (pairs : List (String × ParamPod)) :
    firstValue k ((key, value) :: pairs) = firstValue k pairs := by
  unfold firstValue
  rw [List.find?_cons_of_neg (by simpa using hother)]

/-- What the rate's reader makes of the value it finds. -/
def rateOfValue : Option ParamPod → RateParse
  | none => .absent
  | some value => match valuePodToHz value with
    | none => .malformed
    | some hz => .hz hz

def roleOfValue : Option ParamPod → RoleParse
  | none => .absent
  | some value => match valuePodToRoleFlag value with
    | none => .malformed
    | some flag => roleOfFlag flag

theorem rateWalk_pairs (key : Option String) (pods : List ParamPod) :
    rateWalk key pods = rateOfValue (firstValue "reac.cfg.rate" (propPairs key pods)) := by
  induction key, pods using rateWalk.induct with
  | case1 key => cases key <;> rfl
  | case2 s rest ih => exact ih
  | case3 pod rest hstr ih =>
      cases pod with
      | str s => exact absurd rfl (hstr s)
      | _ => exact ih
  | case4 k value rest hother ih =>
      rw [rateWalk, if_pos hother, ih, propPairs, firstValue_other hother]
  | case5 k value rest hown =>
      obtain rfl := not_not.mp hown
      rw [rateWalk, if_neg hown, propPairs, firstValue_here]
      rfl
  | case6 k value rest hown =>
      obtain rfl := not_not.mp hown
      rw [rateWalk, if_neg hown, propPairs, firstValue_here]
      rfl

theorem roleWalk_pairs (key : Option String) (pods : List ParamPod) :
    roleWalk key pods = roleOfValue (firstValue "reac.cfg.role" (propPairs key pods)) := by
  induction key, pods using roleWalk.induct with
  | case1 key => cases key <;> rfl
  | case2 s rest ih => exact ih
  | case3 pod rest hstr ih =>
      cases pod with
      | str s => exact absurd rfl (hstr s)
      | _ => exact ih
  | case4 k value rest hother ih =>
      rw [roleWalk, if_pos hother, ih, propPairs, firstValue_other hother]
  | case5 k value rest hown =>
      obtain rfl := not_not.mp hown
      rw [roleWalk, if_neg hown, propPairs, firstValue_here]
      rfl
  | case6 k value rest hown =>
      obtain rfl := not_not.mp hown
      rw [roleWalk, if_neg hown, propPairs, firstValue_here]
      rfl

theorem headampPairs_filter (pairs : List (String × ParamPod)) :
    headampPairs (pairs.filter fun pair => headampPrefix.isPrefixOf pair.1.toList) =
      headampPairs pairs := by
  unfold headampPairs
  rw [List.filterMap_filter]
  congr 1
  funext pair
  split <;> simp_all

/-! ### A write and its parts -/

/-- Each reader answers by its own pairs. -/
theorem reacRatePropParse_pairs (pods : List ParamPod) :
    reacRatePropParse (.params pods) =
      rateOfValue (firstValue "reac.cfg.rate" (DoorPart.rate.pairs pods)) := by
  rw [reacRatePropParse, rateWalk_pairs]
  exact congrArg rateOfValue (firstValue_filter _ _).symm

theorem reacRolePropParse_pairs (pods : List ParamPod) :
    reacRolePropParse (.params pods) =
      roleOfValue (firstValue "reac.cfg.role" (DoorPart.role.pairs pods)) := by
  rw [reacRolePropParse, roleWalk_pairs]
  exact congrArg roleOfValue (firstValue_filter _ _).symm

theorem reacHeadampPropParse_pairs (limits : HeadampLimits) (pods : List ParamPod) :
    reacHeadampPropParse limits (.params pods) =
      pairsWalk limits (limits.maxCh * 3) (headampPairs (DoorPart.headamp.pairs pods)) {} := by
  rw [reacHeadampPropParse, headampWalk_pairs]
  exact congrArg (pairsWalk limits _ · {}) (headampPairs_filter _).symm

section
variable {ω : Type*} (limits : HeadampLimits) (request : ω → ReacRole → ω × Bool) (w : DoorWrite)

/-- One reader's answer to a write. -/
def doorPartAssert (part : DoorPart) (d : SinkDoor ω) (pod : PropsPod) : SinkDoor ω :=
  match part with
  | .headamp => doorAssertHeadamp limits w d pod
  | .rate => doorAssertRate w d pod
  | .role => doorAssertRole request d pod

/-- A reader answers two writes alike when they have the same pairs for it. -/
theorem doorPartAssert_congr (part : DoorPart) (d : SinkDoor ω) {pods pods' : List ParamPod}
    (hpairs : part.pairs pods = part.pairs pods') :
    doorPartAssert limits request w part d (.params pods) =
      doorPartAssert limits request w part d (.params pods') := by
  cases part with
  | headamp =>
      simp only [doorPartAssert, doorAssertHeadamp, sinkDoorAssertHeadamp,
        reacHeadampPropParse_pairs, hpairs]
  | rate => simp only [doorPartAssert, doorAssertRate, reacRatePropParse_pairs, hpairs]
  | role => simp only [doorPartAssert, doorAssertRole, reacRolePropParse_pairs, hpairs]

/-- A write with nothing for a reader is none to it. -/
theorem doorPartAssert_none (part : DoorPart) (d : SinkDoor ω) {pods : List ParamPod}
    (hpairs : part.pairs pods = []) :
    doorPartAssert limits request w part d (.params pods) = d := by
  cases part with
  | headamp =>
      simp only [doorPartAssert, doorAssertHeadamp, sinkDoorAssertHeadamp,
        reacHeadampPropParse_pairs, hpairs]
      rfl
  | rate =>
      simp only [doorPartAssert, doorAssertRate, reacRatePropParse_pairs, hpairs]
      rfl
  | role =>
      simp only [doorPartAssert, doorAssertRole, reacRolePropParse_pairs, hpairs]
      rfl

theorem doorPartAssert_partOf (part part' : DoorPart) (d : SinkDoor ω) (pods : List ParamPod) :
    doorPartAssert limits request w part' d (partOf part pods) =
      if part' = part then doorPartAssert limits request w part d (.params pods) else d := by
  have hpairs := pairs_packed part part' pods
  by_cases hpart : part' = part
  · subst hpart
    rw [if_pos rfl] at hpairs ⊢
    exact doorPartAssert_congr limits request w part' d hpairs
  · rw [if_neg hpart] at hpairs ⊢
    exact doorPartAssert_none limits request w part' d hpairs

/-- The write of one reader's pairs is answered by that reader. -/
theorem sinkDoorAssert_partOf (part : DoorPart) (d : SinkDoor ω) (pods : List ParamPod) :
    sinkDoorAssert limits request w d (partOf part pods) =
      doorPartAssert limits request w part d (.params pods) := by
  show doorPartAssert limits request w .role (doorPartAssert limits request w .rate
    (doorPartAssert limits request w .headamp d _) _) _ = _
  rw [doorPartAssert_partOf, doorPartAssert_partOf, doorPartAssert_partOf]
  cases part <;> simp

/-- The head-amp's answer leaves what the others read and write. -/
theorem headamp_rate_comm (d : SinkDoor ω) (pod : PropsPod) :
    doorAssertRate w (doorAssertHeadamp limits w d pod) pod =
      doorAssertHeadamp limits w (doorAssertRate w d pod) pod := by
  unfold doorAssertRate doorAssertHeadamp
  dsimp only
  split <;> rfl

theorem headamp_role_comm (d : SinkDoor ω) (pod : PropsPod) :
    doorAssertRole request (doorAssertHeadamp limits w d pod) pod =
      doorAssertHeadamp limits w (doorAssertRole request d pod) pod := by
  unfold doorAssertRole doorAssertHeadamp
  dsimp only
  split
  · rfl
  · rfl
  · split <;> rfl

/-- A rate and a role wait in places of their own. -/
theorem rateAssert_doorAssert (n : SinkNode) (sampleRate hz : Nat) (accepted : Bool)
    (r : RoleAssert) :
    (n.rateAssert sampleRate hz accepted).doorAssert r =
      (n.doorAssert r).rateAssert sampleRate hz accepted := by
  unfold SinkNode.rateAssert SinkNode.doorAssert
  split <;> split <;> rfl

theorem rate_role_comm (d : SinkDoor ω) (pod : PropsPod) :
    doorAssertRole request (doorAssertRate w d pod) pod =
      doorAssertRate w (doorAssertRole request d pod) pod := by
  unfold doorAssertRole doorAssertRate
  cases hrole : reacRolePropParse pod with
  | absent => rfl
  | malformed => cases hrate : rateRefusal w.drivable (reacRatePropParse pod) <;> simp only [hrate]
  | role requested =>
      cases hrate : rateRefusal w.drivable (reacRatePropParse pod) with
      | none => simp only [hrate]
      | some refusal =>
          cases d.swap <;> simp only [hrate, rateAssert_doorAssert]

/-- The readers' answers to one write may be given in any order. -/
theorem doorPartAssert_comm (part part' : DoorPart) (d : SinkDoor ω) (pod : PropsPod) :
    doorPartAssert limits request w part' (doorPartAssert limits request w part d pod) pod =
      doorPartAssert limits request w part (doorPartAssert limits request w part' d pod) pod := by
  cases part <;> cases part'
  · rfl
  · exact headamp_rate_comm limits w d pod
  · exact headamp_role_comm limits request w d pod
  · exact (headamp_rate_comm limits w d pod).symm
  · rfl
  · exact rate_role_comm request w d pod
  · exact (headamp_role_comm limits request w d pod).symm
  · exact (rate_role_comm request w d pod).symm
  · rfl

/-- **One write is three.**  A Props object does to the node what three objects do that carry
the head-amp's pairs, the rate's and the role's, whichever comes first; and two objects with
the same pairs for each of the three do the same, however these are interleaved and whatever
else they carry. -/
theorem write_door_split (d : SinkDoor ω) (pods : List ParamPod) :
    (∀ order : List DoorPart, order.Perm [.headamp, .rate, .role] →
      order.foldl (fun d part => sinkDoorAssert limits request w d (partOf part pods)) d =
        sinkDoorAssert limits request w d (.params pods)) ∧
    ∀ pods' : List ParamPod, (∀ part : DoorPart, part.pairs pods' = part.pairs pods) →
      sinkDoorAssert limits request w d (.params pods') =
        sinkDoorAssert limits request w d (.params pods) := by
  constructor
  · intro order horder
    have hparts : (fun (d : SinkDoor ω) part => sinkDoorAssert limits request w d
        (partOf part pods)) =
        fun d part => doorPartAssert limits request w part d (.params pods) := by
      funext d part
      exact sinkDoorAssert_partOf limits request w part d pods
    rw [hparts]
    exact horder.foldl_eq' (fun part _ part' _ d =>
      doorPartAssert_comm limits request w part part' d (.params pods)) d
  · intro pods' hpairs
    have hsame := fun part (d : SinkDoor ω) =>
      doorPartAssert_congr limits request w part d (hpairs part)
    show doorPartAssert limits request w .role (doorPartAssert limits request w .rate
      (doorPartAssert limits request w .headamp d _) _) _ = _
    rw [hsame, hsame, hsame]
    rfl

end

/-- A console's write with a head-amp cell between a rate and a role, and a stranger's key. -/
def mixedPods : List ParamPod :=
  [.str "reac.cfg.rate", .int 96000, .str "reac.headamp.0.phantom", .bool true,
    .str "other", .other, .str "reac.cfg.role", .int 1]

example : DoorPart.headamp.pairs mixedPods = [("reac.headamp.0.phantom", .bool true)] ∧
    DoorPart.role.pairs mixedPods = [("reac.cfg.role", .int 1)] := by decide

end ReacPw
