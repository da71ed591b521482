import Sace.Android

/-! Messages in a Parcel to which something else was written first, as in a Binder transaction,
where the token of the interface comes first. -/
namespace Sace

variable (F : ParcelFormat)

/-- The memory of the machine, and so a Parcel, has the least significant byte first. -/
def ParcelFormat.LittleEndian : Prop := ∀ n, F.uint32.write n = Bytes.littleEndian 4 n.toNat

inductive Message where
  | command (c : SaceCommand)
  | result (r : SaceResult)
  | response (r : SaceStatusResponse)

namespace Message

def writeToParcel : Message → Parcel → Parcel
  | .command c => c.writeToParcel F
  | .result r => r.writeToParcel F
  | .response r => r.writeToParcel F

/-- The `len` that the header's readFromParcel finds. -/
def readLen : Message → Bytes → UInt32
  | .command _, data => (SaceCommandHeader.readFromParcel F data).1.len
  | .result _, data | .response _, data => (SaceResultHeader.readFromParcel F data).1.len

def body : Message → Bytes
  | .command c => c.body F
  | .result r => r.body F
  | .response r => r.body F

theorem readLen_eq (msg : Message) (data : Bytes) :
    msg.readLen F data = (F.uint32.readOr 0 data).1 := by
  cases msg <;> rfl

theorem writeToParcel_ended (msg : Message) (prior : Bytes) :
    msg.writeToParcel F (.ended prior) =
      writeLength F (.ended (prior ++ (F.uint32.write 0 ++ msg.body F))) := by
  cases msg with
  | command c =>
    rw [writeToParcel, SaceCommand.writeToParcel, SaceCommand.reserveSpace]
    by_cases known : SaceCommand.knownType c.type <;> simp [known, body, SaceCommand.body]
  | result r =>
    rw [writeToParcel, SaceResult.writeToParcel, SaceResultHeader.reserveSpace]
    by_cases fd : r.resultType = .fd <;> simp [fd, body, SaceResult.body]
  | response r =>
    rw [writeToParcel, SaceStatusResponse.writeToParcel, SaceResultHeader.reserveSpace]
    simp [body, SaceStatusResponse.body]

def size (msg : Message) : Nat := 4 + (msg.body F).length

/-- The bytes that were there stay, and the length that is read back behind them is the
message's size. -/
structure Framed (msg : Message) (prior : Bytes) : Prop where
  kept : (msg.writeToParcel F (.ended prior)).data.take prior.length = prior
  len : (msg.readLen F ((msg.writeToParcel F (.ended prior)).data.drop prior.length)).toNat =
    (msg.writeToParcel F (.ended prior)).data.length - prior.length

end Message

/-! ### The length goes to the front of the Parcel -/

theorem writeLength_data (prior body : Bytes) :
    (writeLength F (.ended (prior ++ (F.uint32.write 0 ++ body)))).data =
      F.uint32.write (UInt32.ofNat (prior.length + (4 + body.length))) ++
        (prior ++ (F.uint32.write 0 ++ body)).drop 4 := by
  simp [writeLength, Parcel.setDataPosition, Parcel.put, Parcel.ended, F.uint32_width]

theorem writeLength_length (prior body : Bytes) :
    (writeLength F (.ended (prior ++ (F.uint32.write 0 ++ body)))).data.length =
      prior.length + (4 + body.length) := by
  simp only [writeLength_data, List.length_append, List.length_drop, F.uint32_width]
  omega

/-- Behind four bytes or more the space that was reserved keeps its zero. -/
theorem drop_of_word {prior body : Bytes} (long : 4 ≤ prior.length) :
    (writeLength F (.ended (prior ++ (F.uint32.write 0 ++ body)))).data.drop prior.length =
      F.uint32.write 0 ++ body := by
  obtain ⟨more, length⟩ := Nat.exists_eq_add_of_le long
  rw [writeLength_data, List.drop_append, F.uint32_width, List.drop_drop,
    List.drop_of_length_le (by rw [F.uint32_width]; exact long), List.nil_append,
    Nat.add_sub_cancel' long, List.drop_left]

/-- Behind one to three bytes there stand the upper bytes of the Parcel's size. -/
theorem drop_of_bytes {prior body : Bytes} (little : F.LittleEndian) (short : prior.length < 4) :
    (writeLength F (.ended (prior ++ (F.uint32.write 0 ++ body)))).data.drop prior.length =
      F.uint32.write (UInt32.ofNat ((UInt32.ofNat (prior.length + (4 + body.length))).toNat /
        256 ^ prior.length)) ++ body := by
  generalize total : UInt32.ofNat (prior.length + (4 + body.length)) = size
  have bound := size.toNat_lt
  have below : size.toNat / 256 ^ prior.length ≤ size.toNat := Nat.div_le_self _ _
  have value : (UInt32.ofNat (size.toNat / 256 ^ prior.length)).toNat =
      size.toNat / 256 ^ prior.length :=
    UInt32.toNat_ofNat_of_lt' (Nat.lt_of_le_of_lt below bound)
  have high : size.toNat / 256 ^ prior.length / 256 ^ (4 - prior.length) = 0 := by
    rw [Nat.div_div_eq_div_mul, ← Nat.pow_add, Nat.add_sub_cancel' (Nat.le_of_lt short)]
    exact Nat.div_eq_of_lt bound
  have zeros : (F.uint32.write 0).drop (4 - prior.length) =
      Bytes.littleEndian prior.length 0 := by
    rw [little, Bytes.littleEndian_drop, UInt32.toNat_zero, Nat.zero_div]
    congr 1
    omega
  have word : F.uint32.write (UInt32.ofNat (size.toNat / 256 ^ prior.length)) =
      Bytes.littleEndian (4 - prior.length) (size.toNat / 256 ^ prior.length) ++
        Bytes.littleEndian prior.length 0 := by
    rw [little, value, ← high, Bytes.littleEndian_append,
      Nat.sub_add_cancel (Nat.le_of_lt short)]
  have rest : (prior ++ (F.uint32.write 0 ++ body)).drop 4 =
      Bytes.littleEndian prior.length 0 ++ body := by
    rw [List.drop_append, List.drop_of_length_le (Nat.le_of_lt short), List.nil_append,
      List.drop_append_of_le_length (by rw [F.uint32_width]; omega), zeros]
  rw [writeLength_data, total, List.drop_append_of_le_length (by rw [F.uint32_width]; omega), rest,
    word, little, Bytes.littleEndian_drop, List.append_assoc]

/-- Behind anything at all the length is too small. -/
theorem len_small (little : F.LittleEndian) {prior : Bytes} (some : prior ≠ []) (body : Bytes) :
    ∃ len rest, (writeLength F (.ended (prior ++ (F.uint32.write 0 ++ body)))).data.drop
      prior.length = F.uint32.write len ++ rest ∧ len.toNat < 4 + body.length := by
  by_cases long : 4 ≤ prior.length
  · exact ⟨0, body, drop_of_word F long, by rw [UInt32.toNat_zero]; omega⟩
  · have short := Nat.lt_of_not_le long
    refine ⟨_, body, drop_of_bytes F little short, ?_⟩
    have positive := List.length_pos_iff.mpr some
    have power : 256 ^ 1 ≤ 256 ^ prior.length := Nat.pow_le_pow_right (by decide) positive
    generalize total : UInt32.ofNat (prior.length + (4 + body.length)) = size
    have small : size.toNat ≤ prior.length + (4 + body.length) := by
      rw [← total, UInt32.toNat_ofNat']
      exact Nat.mod_le _ _
    have below : size.toNat / 256 ^ prior.length ≤ size.toNat / 256 ^ 1 :=
      Nat.div_le_div_left power (by decide)
    have value : (UInt32.ofNat (size.toNat / 256 ^ prior.length)).toNat ≤
        size.toNat / 256 ^ prior.length := by
      rw [UInt32.toNat_ofNat']
      exact Nat.mod_le _ _
    omega

/-- A message is framed exactly when it is the first thing in its Parcel, and its length fits
into the field. -/
theorem framed_iff (little : F.LittleEndian) (msg : Message) (prior : Bytes) :
    msg.Framed F prior ↔ prior = [] ∧ msg.size F < 2 ^ 32 := by
  have occupied : (msg.writeToParcel F (.ended prior)).data.length - prior.length =
      msg.size F := by
    rw [msg.writeToParcel_ended, writeLength_length, Nat.add_sub_cancel_left, Message.size]
  constructor
  · intro framed
    have len := framed.len
    rw [occupied, msg.readLen_eq, msg.writeToParcel_ended] at len
    by_cases some : prior = []
    · subst some
      rw [List.length_nil, List.drop_zero, List.nil_append, writeLength_ended,
        (F.uint32_carries _).readOr, ← Message.size] at len
      exact ⟨rfl, len ▸ UInt32.toNat_lt _⟩
    · obtain ⟨value, rest, found, small⟩ := len_small F little some (msg.body F)
      rw [found, (F.uint32_carries _).readOr] at len
      exact absurd len (Nat.ne_of_lt small)
  · rintro ⟨rfl, small⟩
    refine ⟨rfl, ?_⟩
    rw [occupied, msg.readLen_eq, msg.writeToParcel_ended, List.length_nil, List.drop_zero,
      List.nil_append, writeLength_ended, (F.uint32_carries _).readOr, ← Message.size]
    exact UInt32.toNat_ofNat_of_lt' small

/-! A status response behind the four bytes of a word. -/

theorem android_little : Android.parcel.LittleEndian := fun _ => rfl

def token : Bytes := [1, 2, 3, 4]

theorem token_framed_iff : (Message.response {}).Framed Android.parcel token ↔
    token = [] ∧ (Message.response {}).size Android.parcel < 2 ^ 32 :=
  framed_iff Android.parcel android_little _ _

/-- The word is overwritten with the size of the Parcel. -/
theorem token_overwritten : ¬ ∀ (F : ParcelFormat), F.LittleEndian →
    ∀ (msg : Message) (prior : Bytes), msg.Framed F prior := by
  intro framed
  have kept := (framed Android.parcel android_little (.response {}) token).kept
  exact absurd kept (by decide)

end Sace
