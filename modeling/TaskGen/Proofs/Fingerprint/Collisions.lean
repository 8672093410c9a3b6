import TaskGen.Proofs.Json.Texts

/-!
What the fingerprint of a pipeline tells of it.  The bytes that are hashed determine the stages
and their options, so different pipelines have one fingerprint only where two messages have one
digest.

Main statement: `determined_by_bytes`.
-/

namespace TaskGen
namespace Digest
namespace Sha224

/-- The seven words that are written out. -/
def sum (message : List UInt8) : List UInt32 :=
  let words := bigEndian (pad message)
  ((blocks (words.length / 16) words).foldl compress Words.start).digest

theorem hex_eq (message : List UInt8) :
    hex message = String.ofList ((sum message).flatMap hexWord) := rfl

theorem hexDigit_injective {m n : Nat} (hm : m < 16) (hn : n < 16)
    (h : Json.hexDigit m = Json.hexDigit n) : m = n := by
  have hvalues := congrArg Text.hexValue? h
  rw [Json.hexValue?_hexDigit hm, Json.hexValue?_hexDigit hn] at hvalues
  exact Option.some.inj hvalues

theorem hexByte_eq (b : UInt8) :
    hexByte b = [Json.hexDigit (b.toNat / 16), Json.hexDigit (b.toNat % 16)] := rfl

theorem hexByte_injective : Function.Injective hexByte := by
  intro a b h
  have ha := a.toNat_lt
  have hb := b.toNat_lt
  simp only [hexByte_eq, List.cons.injEq, and_true] at h
  have hhigh := hexDigit_injective (by omega) (by omega) h.1
  have hlow := hexDigit_injective (by omega) (by omega) h.2
  exact UInt8.toNat_inj.1 (by omega)

/-- Pieces of one length show where they end. -/
theorem flatMap_injective {α β : Type} {f : α → List β} (inj : Function.Injective f) (n : Nat)
    (length : ∀ a, (f a).length = n + 1) : Function.Injective (List.flatMap f) := by
  have hne (a : α) (as : List α) : (a :: as).flatMap f ≠ [] := by
    intro h
    have hlength := congrArg List.length (List.append_eq_nil_iff.1 h).1
    rw [length] at hlength
    cases hlength
  intro as
  induction as with
  | nil =>
    intro bs h
    cases bs with
    | nil => rfl
    | cons b bs => exact absurd h.symm (hne b bs)
  | cons a as ih =>
    intro bs h
    cases bs with
    | nil => exact absurd h (hne a as)
    | cons b bs =>
      obtain ⟨hpiece, hrest⟩ := List.append_inj h (by rw [length, length])
      rw [inj hpiece, ih hrest]

def wordBytes (w : UInt32) : List UInt8 :=
  [(w >>> 24).toUInt8, (w >>> 16).toUInt8, (w >>> 8).toUInt8, w.toUInt8]

theorem wordBytes_injective : Function.Injective wordBytes := by
  intro v w h
  have hv := v.toNat_lt
  have hw := w.toNat_lt
  simp only [wordBytes, List.cons.injEq, ← UInt8.toNat_inj, UInt32.toNat_toUInt8,
    UInt32.toNat_shiftRight, UInt32.reduceToNat, Nat.reduceMod, Nat.shiftRight_eq_div_pow,
    Nat.reducePow, and_true] at h
  exact UInt32.toNat_inj.1 (by omega)

theorem hexWord_eq (w : UInt32) : hexWord w = (wordBytes w).flatMap hexByte := by
  simp [hexWord, wordBytes]

theorem hexWord_injective : Function.Injective hexWord := by
  intro v w h
  rw [hexWord_eq, hexWord_eq] at h
  exact wordBytes_injective (flatMap_injective hexByte_injective 1 (fun _ => rfl) h)

theorem hex_eq_iff {a b : List UInt8} : hex a = hex b ↔ sum a = sum b := by
  rw [hex_eq, hex_eq, String.ofList_inj,
    (flatMap_injective hexWord_injective 7 fun _ => rfl).eq_iff]

structure Collision (a b : List UInt8) : Prop where
  ne : a ≠ b
  sum_eq : sum a = sum b

end Sha224
end Digest

/-! ### Bytes -/

/-- Bytes are listed from an index on, behind those that are listed already. -/
theorem toList_loop (bytes : ByteArray) (i : Nat) (r : List UInt8) :
    ByteArray.toList.loop bytes i r = r.reverse ++ bytes.data.toList.drop i := by
  have hsize : bytes.size = bytes.data.toList.length := rfl
  induction h : bytes.size - i generalizing i r with
  | zero =>
    rw [ByteArray.toList.loop, if_neg (by omega), List.drop_of_length_le (by omega),
      List.append_nil]
  | succ n ih =>
    have hi : i < bytes.data.toList.length := by omega
    have hget : bytes.get! i = bytes.data.toList[i] := by
      show bytes.data[i]! = _
      rw [getElem!_pos bytes.data i hi, Array.getElem_toList]
    rw [ByteArray.toList.loop, if_pos (by omega), ih _ _ (by omega), List.drop_eq_getElem_cons hi,
      hget, List.reverse_cons, List.append_assoc, List.singleton_append]

theorem byteArray_toList (bytes : ByteArray) : bytes.toList = bytes.data.toList :=
  toList_loop bytes 0 []

/-! ### Pipelines -/

/-- The lists have one length, and at each place they have the same stage with structurally equal
options. -/
def Alike (as bs : List ConfiguredStage) : Prop :=
  List.Forall₂ (fun a b => a.stage = b.stage ∧ Json.sameMembers a.options b.options = true) as bs

theorem alike_iff {as bs : List ConfiguredStage} : Alike as bs ↔ samePipeline as bs = true := by
  induction as generalizing bs with
  | nil => cases bs <;> simp [Alike, samePipeline]
  | cons a as ih =>
    cases bs with
    | nil => simp [Alike, samePipeline]
    | cons b bs =>
      have hrest : Alike as bs ↔ samePipeline as bs = true := ih
      simp only [samePipeline, ConfiguredStage.same, Bool.and_eq_true, beq_iff_eq, ← hrest]
      exact List.forall₂_cons

theorem alike_of_sameItems {as bs : List ConfiguredStage}
    (same : Json.sameItems (as.map ConfiguredStage.encode) (bs.map ConfiguredStage.encode) = true) :
    Alike as bs := by
  induction as generalizing bs with
  | nil =>
    cases bs with
    | nil => exact .nil
    | cons b bs => cases same
  | cons a as ih =>
    cases bs with
    | nil => cases same
    | cons b bs =>
      simp only [List.map_cons, Json.sameItems, ConfiguredStage.encode, Json.Value.same,
        Bool.and_true, Bool.and_eq_true, beq_iff_eq] at same
      exact .cons ⟨Stage.name_injective same.1.1, same.1.2⟩ (ih same.2)

def pipelineNumbers (stages : List ConfiguredStage) : List Json.Number :=
  stages.flatMap fun c => Json.memberNumbers c.options

theorem itemNumbers_encode (stages : List ConfiguredStage) :
    Json.itemNumbers (stages.map ConfiguredStage.encode) = pipelineNumbers stages := by
  induction stages with
  | nil => rfl
  | cons c stages ih =>
    simp [Json.itemNumbers, Json.Value.numbers, ConfiguredStage.encode, ih, pipelineNumbers]

def hashed (stages : List ConfiguredStage) : List UInt8 := (pipelineText stages).toUTF8.toList

theorem fingerprint_eq (stages : List ConfiguredStage) :
    fingerprint stages = Digest.Sha224.hex (hashed stages) := rfl

variable {p q : List ConfiguredStage}

theorem hashed_eq_iff : hashed p = hashed q ↔ pipelineText p = pipelineText q := by
  rw [hashed, hashed, byteArray_toList, byteArray_toList, Array.toList_inj, ← ByteArray.ext_iff,
    String.toUTF8_eq_toByteArray, String.toUTF8_eq_toByteArray, String.toByteArray_inj]

structure Determined (p q : List ConfiguredStage) : Prop where
  alike : hashed p = hashed q → Alike p q
  /-- Of pipelines that are alike, the bytes only tell the signs of zeros. -/
  zeros : Alike p q → (hashed p = hashed q ↔ ZerosAgree p q)
  collision : fingerprint p = fingerprint q → ¬ Alike p q →
    Digest.Sha224.Collision (hashed p) (hashed q)

theorem alike_of_pipelineText
    (apart : Json.PrintedApart (pipelineNumbers p) (pipelineNumbers q))
    (text : pipelineText p = pipelineText q) : Alike p q := by
  have hnumbers (stages : List ConfiguredStage) :
      (Json.Value.array (stages.map ConfiguredStage.encode)).numbers = pipelineNumbers stages :=
    itemNumbers_encode stages
  rw [← hnumbers, ← hnumbers] at apart
  exact alike_of_sameItems (Json.Value.same_of_compact apart text)

/-- Pipelines that differ have different bytes, and one digest only by a collision. -/
theorem determined_by_bytes (apart : Json.PrintedApart (pipelineNumbers p) (pipelineNumbers q)) :
    Determined p q where
  alike bytes := alike_of_pipelineText apart (hashed_eq_iff.1 bytes)
  zeros alike := by
    have same := alike_iff.1 alike
    rw [hashed_eq_iff, pipelineText_eq_iff same, zerosAgree_iff same]
  collision digests differ := by
    rw [fingerprint_eq, fingerprint_eq, Digest.Sha224.hex_eq_iff] at digests
    exact ⟨fun bytes => differ (alike_of_pipelineText apart (hashed_eq_iff.1 bytes)), digests⟩

/-- A whole number and the double of the same value, beside a double that both have. -/
theorem determined_by_bytes_of_nested :
    let p : List ConfiguredStage :=
      [⟨.sourceAnalysis, [("a\"b", .array [.number (.int 1), .number (.float 0.1)])]⟩,
        ⟨.environmentModel, [("c", .null), ("d", .object [])]⟩]
    let q : List ConfiguredStage :=
      [⟨.sourceAnalysis, [("a\"b", .array [.number (.float 1), .number (.float 0.1)])]⟩,
        ⟨.environmentModel, [("c", .null), ("d", .object [])]⟩]
    Json.PrintedApart (pipelineNumbers p) (pipelineNumbers q) ∧ Determined p q :=
  ⟨by decide +kernel, determined_by_bytes (by decide +kernel)⟩

end TaskGen
