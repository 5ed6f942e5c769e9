import DdsRpc.Library.StdMap
import Mathlib.Algebra.Group.Nat.Defs
import Mathlib.Algebra.Group.Int.Defs
set_option autoImplicit false

namespace DdsRpc

/-- `octet a[n]`. -/
abbrev Octets (n : Nat) := { l : List UInt8 // l.length = n }

def Octets.slice {n : Nat} (v : Octets n) (i k : Nat) (h : i+k ≤ n) : Octets k :=
  ⟨(v.1.drop i).take k,by have hv := v.2; simp; omega⟩

def Octets.zero (n : Nat) : Octets n := ⟨List.replicate n 0,List.length_replicate⟩

structure EntityId where
  entityKey : Octets 3
  entityKind : UInt8
  deriving DecidableEq

structure GUID where
  guidPrefix : Octets 12
  entityId : EntityId
  deriving DecidableEq

/-- `SequenceNumber_t`, which the IDL types and Connext lay out alike. A writer's
64-bit numbers never run out, so `high` is a plain integer. -/
structure SequenceNumber where
  high : Int
  low : UInt32
  deriving DecidableEq

/-- `dds::SampleIdentity`, the identity carried in the RPC headers. -/
structure SampleIdentity where
  writerGuid : GUID
  sequenceNumber : SequenceNumber
  deriving DecidableEq

namespace DDS

structure GUID where
  value : Octets 16
  deriving DecidableEq

def GUID.ofByte (b : UInt8) : DDS.GUID := ⟨⟨List.replicate 16 b,List.length_replicate⟩⟩

/-- `DDS::SampleIdentity_t`, the identity Connext gives to a written sample. -/
structure SampleIdentity where
  writerGuid : DDS.GUID
  sequenceNumber : SequenceNumber
  deriving DecidableEq

end DDS

def SequenceNumber.nth (n : Nat) : SequenceNumber := ⟨n/2^32,UInt32.ofNat n⟩

theorem uint32_ofNat_inj {m n : Nat} (hm : m < 2^32) (hn : n < 2^32)
    (h : UInt32.ofNat m = UInt32.ofNat n) : m = n := by
  have ht := congrArg UInt32.toNat h
  simp only [UInt32.toNat_ofNat'] at ht
  omega

theorem SequenceNumber.nth_injective {m n : Nat} (h : nth m = nth n) : m = n := by
  have hh := congrArg SequenceNumber.high h
  have hl := congrArg (fun s => s.low.toNat) h
  simp only [nth,UInt32.toNat_ofNat'] at hh hl
  omega

def SequenceNumber.lt (a b : SequenceNumber) : Prop :=
  a.high < b.high ∨ a.high = b.high ∧ a.low < b.low

instance : DecidableRel SequenceNumber.lt := fun _ _ => inferInstanceAs (Decidable (_ ∨ _))

def DDS.SampleIdentity.lt (lhs rhs : DDS.SampleIdentity) : Prop :=
  lhs.sequenceNumber.lt rhs.sequenceNumber

instance : DecidableRel DDS.SampleIdentity.lt := fun a b =>
  inferInstanceAs (Decidable (a.sequenceNumber.lt b.sequenceNumber))

/-- Only the low word counts. -/
def SampleIdentity.lt (lhs rhs : SampleIdentity) : Prop :=
  lhs.sequenceNumber.low < rhs.sequenceNumber.low

instance : DecidableRel SampleIdentity.lt := fun a b =>
  inferInstanceAs (Decidable (a.sequenceNumber.low < b.sequenceNumber.low))

theorem SampleIdentity.equivalent_iff {a b : SampleIdentity} :
    Equivalent SampleIdentity.lt a b ↔ a.sequenceNumber.low = b.sequenceNumber.low := by
  simp only [Equivalent,SampleIdentity.lt,UInt32.lt_iff_toNat_lt,← UInt32.toNat_inj]
  omega

theorem DDS.SampleIdentity.equivalent_iff {a b : DDS.SampleIdentity} :
    Equivalent DDS.SampleIdentity.lt a b ↔ a.sequenceNumber = b.sequenceNumber := by
  obtain ⟨-,ah,al⟩ := a
  obtain ⟨-,bh,bl⟩ := b
  simp only [Equivalent,DDS.SampleIdentity.lt,SequenceNumber.lt,UInt32.lt_iff_toNat_lt,
    SequenceNumber.mk.injEq,← UInt32.toNat_inj]
  omega

instance : IsStrictWeakOrder SampleIdentity SampleIdentity.lt where
  irrefl a := by simp [SampleIdentity.lt]
  trans a b c hab hbc := by
    simp only [SampleIdentity.lt,UInt32.lt_iff_toNat_lt] at *
    omega
  incomp_trans a b c hab hbc :=
    SampleIdentity.equivalent_iff.mpr
      ((SampleIdentity.equivalent_iff.mp hab).trans (SampleIdentity.equivalent_iff.mp hbc))

instance : IsStrictWeakOrder DDS.SampleIdentity DDS.SampleIdentity.lt where
  irrefl a := by simp [DDS.SampleIdentity.lt,SequenceNumber.lt]
  trans a b c hab hbc := by
    simp only [DDS.SampleIdentity.lt,SequenceNumber.lt,UInt32.lt_iff_toNat_lt] at *
    omega
  incomp_trans a b c hab hbc :=
    DDS.SampleIdentity.equivalent_iff.mpr
      ((DDS.SampleIdentity.equivalent_iff.mp hab).trans
        (DDS.SampleIdentity.equivalent_iff.mp hbc))

def GUID.ofBytes (v : Octets 16) : GUID where
  guidPrefix := v.slice 0 12 (by omega)
  entityId :=
    { entityKey := v.slice 12 3 (by omega)
      entityKind := v.1.get ⟨15,by have hv := v.2; omega⟩ }

def GUID.bytes (g : GUID) : Octets 16 :=
  ⟨g.guidPrefix.1 ++ g.entityId.entityKey.1 ++ [g.entityId.entityKind],by
    simp [g.guidPrefix.2,g.entityId.entityKey.2]⟩

/-- `memcpy(&outid, &inid, sizeof(SampleIdentity_t))`. -/
def toRpcSampleIdentity (inid : DDS.SampleIdentity) : SampleIdentity where
  writerGuid := GUID.ofBytes inid.writerGuid.value
  sequenceNumber := inid.sequenceNumber

def toConnextIdentity (identity : SampleIdentity) : DDS.SampleIdentity where
  writerGuid := ⟨identity.writerGuid.bytes⟩
  sequenceNumber := identity.sequenceNumber

theorem GUID.bytes_ofBytes (v : Octets 16) : (GUID.ofBytes v).bytes = v := by
  obtain ⟨l,hl⟩ := v
  apply Subtype.ext
  simp only [GUID.bytes,GUID.ofBytes,Octets.slice]
  apply List.ext_getElem
  · simp [hl]
  · intro i h₁ h₂
    have hi : i < 16 := by omega
    simp only [List.getElem_append,List.length_append,List.length_take,List.length_drop,
      List.getElem_take,List.getElem_drop,List.getElem_singleton,List.get_eq_getElem]
    split_ifs
    · simp
    · congr 1
      omega
    · congr 1
      omega

@[simp] theorem toConnextIdentity_toRpcSampleIdentity (i : DDS.SampleIdentity) :
    toConnextIdentity (toRpcSampleIdentity i) = i := by
  simp [toConnextIdentity,toRpcSampleIdentity,GUID.bytes_ofBytes]

inductive RemoteExceptionCode where
  | ok | unsupported | invalidArgument | outOfResources | unknownOperation | unknownException
  deriving DecidableEq

def RemoteExceptionCode.value : RemoteExceptionCode → Int32
  | .ok => 0
  | .unsupported => 1
  | .invalidArgument => 2
  | .outOfResources => 3
  | .unknownOperation => 4
  | .unknownException => 5

structure RequestHeader where
  requestId : SampleIdentity
  instanceName : String
  deriving DecidableEq

def RequestHeader.initial : RequestHeader := ⟨⟨.ofBytes (.zero 16),⟨0,0⟩⟩,""⟩

structure ReplyHeader where
  relatedRequestId : SampleIdentity
  remoteEx : RemoteExceptionCode
  deriving DecidableEq

/-- A `TReq`: the templates of request_reply.hpp look at the header only. -/
structure Request (α : Type) where
  header : RequestHeader
  data : α
  deriving DecidableEq

structure Reply (α : Type) where
  header : ReplyHeader
  data : α
  deriving DecidableEq

end DdsRpc
