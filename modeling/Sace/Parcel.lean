import Sace.Message

/-! android::Parcel, which the repository uses and does not contain, and what the
classes of SaceTypes and SaceParams write to it and read from it. -/
namespace Sace
open Wire

/-- The Parcel operations that are used, as the bytes they write and take. A read that does
not find its data yields nothing: numbers are then zero, strings stay as they were. `text`
are the strings that UTF-16 can hold. -/
structure ParcelFormat where
  uint32 : Slot UInt32
  uint64 : Slot UInt64
  byte : Slot UInt8
  bool : Slot Bool
  text : Str → Prop
  utf16 : Slot Str
  utf16Vector : Slot (List Str)
  raw : Bytes → Bytes
  readRaw : Nat → Bytes → Option (Bytes × Bytes)
  fd : Slot Int
  uint32_carries : ∀ n, uint32.Carries n
  uint32_width : ∀ n, (uint32.write n).length = 4
  uint64_carries : ∀ n, uint64.Carries n
  uint64_width : ∀ n, (uint64.write n).length = 8
  byte_width : ∀ b, (byte.write b).length = 4
  byte_carries : ∀ b, byte.Carries b
  bool_carries : ∀ b, bool.Carries b
  ascii_text : ∀ s : Str, s.length < 2 ^ 16 → (∀ c ∈ s, c < 128) → text s
  utf16_carries : ∀ s, text s → utf16.Carries s
  utf16Vector_carries : ∀ ss, ss.length < 2 ^ 31 → (∀ s ∈ ss, text s) → utf16Vector.Carries ss
  raw_carries : ∀ bs rest, bs.length < 2 ^ 31 → readRaw bs.length (raw bs ++ rest) = some (bs, rest)

structure Parcel where
  data : Bytes := []
  pos : Nat := 0

namespace Parcel

def setDataPosition (p : Parcel) (pos : Nat) : Parcel := { p with pos }

def put (p : Parcel) (bs : Bytes) : Parcel :=
  { data := p.data.take p.pos ++ bs ++ p.data.drop (p.pos + bs.length)
    pos := p.pos + bs.length }

def ended (data : Bytes) : Parcel := ⟨data, data.length⟩

@[simp] theorem ended_data (data : Bytes) : (ended data).data = data := rfl

@[simp] theorem put_ended (data bs : Bytes) : (ended data).put bs = ended (data ++ bs) := by
  simp [put, ended]

end Parcel

variable (F : ParcelFormat)

/-- `SaceCommandHeader::writeToParcel` and `SaceResultHeader::writeToParcel`: the size goes
to the space that was reserved for it. -/
def writeLength (data : Parcel) : Parcel :=
  let dataPosition := data.pos
  let p := data.setDataPosition 0
  let p := p.put (F.uint32.write (UInt32.ofNat p.data.length))
  p.setDataPosition dataPosition

theorem writeLength_ended (n : UInt32) (body : Bytes) :
    (writeLength F (.ended (F.uint32.write n ++ body))).data =
      F.uint32.write (UInt32.ofNat (4 + body.length)) ++ body := by
  have width := F.uint32_width
  simp [writeLength, Parcel.setDataPosition, Parcel.put, Parcel.ended, width]

/-! ### Parameters -/

namespace SaceCommandParams

def writeToParcel (params : SaceCommandParams) (parcel : Parcel) : Parcel :=
  let p := parcel.put (F.utf16.write params.uid)
  let p := p.put (F.utf16.write params.gid)
  let p := p.put (F.utf16Vector.write params.suppGids)
  let p := p.put (F.utf16.write params.seclabel)
  let p := p.put (F.uint64.write (UInt64.ofNat params.capabilities.toNat))
  p.put (F.utf16Vector.write params.rlimits)

def readFromParcel (params : SaceCommandParams) (parcel : Bytes) : SaceCommandParams × Bytes :=
  let (uid, rest) := F.utf16.readOr params.uid parcel
  let (gid, rest) := F.utf16.readOr params.gid rest
  let (suppGids, rest) := F.utf16Vector.readOr params.suppGids rest
  let (seclabel, rest) := F.utf16.readOr params.seclabel rest
  let (capabilities, rest) := F.uint64.readOr 0 rest
  let (rlimits, rest) := F.utf16Vector.readOr params.rlimits rest
  ({ uid, gid, suppGids, rlimits, seclabel
     capabilities := BitVec.ofNat _ capabilities.toNat }, rest)

/-- Every string of the parameters survives the conversion to UTF-16 and back. -/
structure Text (params : SaceCommandParams) : Prop where
  uid : F.text params.uid
  gid : F.text params.gid
  seclabel : F.text params.seclabel
  suppGids : params.suppGids.length < 2 ^ 31 ∧ ∀ s ∈ params.suppGids, F.text s
  rlimits : params.rlimits.length < 2 ^ 31 ∧ ∀ s ∈ params.rlimits, F.text s

def body (params : SaceCommandParams) : Bytes :=
  F.utf16.write params.uid ++ (F.utf16.write params.gid ++
    (F.utf16Vector.write params.suppGids ++ (F.utf16.write params.seclabel ++
      (F.uint64.write (UInt64.ofNat params.capabilities.toNat) ++
        F.utf16Vector.write params.rlimits))))

@[simp] theorem writeToParcel_ended (params : SaceCommandParams) (data : Bytes) :
    params.writeToParcel F (.ended data) = .ended (data ++ params.body F) := by
  simp [writeToParcel, body]

theorem capabilities_carried (capabilities : CapSet) :
    BitVec.ofNat (CAP_LAST_CAP + 1) (UInt64.ofNat capabilities.toNat).toNat = capabilities := by
  have bound := capabilities.isLt
  have small : capabilities.toNat < 2 ^ 64 :=
    Nat.lt_of_lt_of_le bound (Nat.pow_le_pow_right (by decide) (by decide))
  rw [UInt64.toNat_ofNat_of_lt' small, BitVec.ofNat_toNat, BitVec.setWidth_eq]

theorem readFromParcel_body {params : SaceCommandParams} (valid : params.Text F)
    (old : SaceCommandParams) (rest : Bytes) :
    readFromParcel F old (params.body F ++ rest) = (params, rest) := by
  simp only [readFromParcel, body, List.append_assoc,
    (F.utf16_carries _ valid.uid).readOr, (F.utf16_carries _ valid.gid).readOr,
    (F.utf16Vector_carries _ valid.suppGids.1 valid.suppGids.2).readOr,
    (F.utf16_carries _ valid.seclabel).readOr, (F.uint64_carries _).readOr,
    (F.utf16Vector_carries _ valid.rlimits.1 valid.rlimits.2).readOr, capabilities_carried]

end SaceCommandParams

namespace SaceEventParams

def writeToParcel (params : SaceEventParams) (parcel : Parcel) : Parcel :=
  let p := params.toSaceCommandParams.writeToParcel F parcel
  let p := p.put (F.bool.write params.boot)
  let p := p.put (F.utf16Vector.write params.propertyKey)
  p.put (F.utf16Vector.write params.propertyValue)

def readFromParcel (params : SaceEventParams) (parcel : Bytes) : SaceEventParams × Bytes :=
  let (base, rest) := params.toSaceCommandParams.readFromParcel F parcel
  let (boot, rest) := F.bool.readOr false rest
  let (propertyKey, rest) := F.utf16Vector.readOr params.propertyKey rest
  let (propertyValue, rest) := F.utf16Vector.readOr params.propertyValue rest
  ({ toSaceCommandParams := base, propertyKey, propertyValue, boot }, rest)

structure Text (params : SaceEventParams) : Prop where
  base : params.toSaceCommandParams.Text F
  keys : params.propertyKey.length < 2 ^ 31 ∧ ∀ s ∈ params.propertyKey, F.text s
  values : params.propertyValue.length < 2 ^ 31 ∧ ∀ s ∈ params.propertyValue, F.text s

def body (params : SaceEventParams) : Bytes :=
  params.toSaceCommandParams.body F ++ (F.bool.write params.boot ++
    (F.utf16Vector.write params.propertyKey ++ F.utf16Vector.write params.propertyValue))

@[simp] theorem writeToParcel_ended (params : SaceEventParams) (data : Bytes) :
    params.writeToParcel F (.ended data) = .ended (data ++ params.body F) := by
  simp [writeToParcel, body]

theorem readFromParcel_body {params : SaceEventParams} (valid : params.Text F)
    (old : SaceEventParams) (rest : Bytes) :
    readFromParcel F old (params.body F ++ rest) = (params, rest) := by
  simp only [readFromParcel, body, List.append_assoc,
    SaceCommandParams.readFromParcel_body F valid.base, (F.bool_carries _).readOr,
    (F.utf16Vector_carries _ valid.keys.1 valid.keys.2).readOr,
    (F.utf16Vector_carries _ valid.values.1 valid.values.2).readOr]

end SaceEventParams
end Sace
