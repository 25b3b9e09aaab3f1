import NetworkStack.Lib.Blocks
import NetworkStack.Vns.Protocol

/-!
# Long texts in banners

`get_banners` and `get_banners_and_close` cut a text into messages of 255 characters. They take
one more than the quotient, so that a text of a multiple of 255 characters ends in an empty
message that it does not need.
-/

namespace NetworkStack.Vns

open Blocks Decimal

/-- `VNSBanner.get_banners`. -/
def getBanners (msg : List Byte) : List VnsMessage :=
  let n := msg.length / 255 + 1
  (List.range n).map fun i => .vnsBanner (slice msg (i * 255) 255)

/-- `VNSClose.get_banners_and_close`. -/
def getBannersAndClose (msg : List Byte) : List VnsMessage :=
  let n := msg.length / 255 + 1
  (List.range n).map fun i =>
    if i + 1 < n then .vnsBanner (slice msg (i * 255) 255)
    else .vnsClose (slice msg (i * 255) 255)

/-- The texts are short enough, make up the message, and are as few as possible. -/
structure Splits (msg : List Byte) (texts : List (List Byte)) : Prop where
  short : ∀ text ∈ texts, text.length ≤ 255
  whole : texts.flatten = msg
  count : texts.length = max 1 ((msg.length + 254) / 255)
  fewest : ∀ others : List (List Byte), others ≠ [] → (∀ text ∈ others, text.length ≤ 255) →
    others.flatten = msg → texts.length ≤ others.length

/-- What the two functions are for. -/
structure SplitsUp (msg : List Byte) : Prop where
  banners : ∃ texts, getBanners msg = texts.map VnsMessage.vnsBanner ∧ Splits msg texts
  closing : ∃ texts last, getBannersAndClose msg =
    texts.map VnsMessage.vnsBanner ++ [.vnsClose last] ∧ Splits msg (texts ++ [last])

variable {msg : List Byte}

theorem getBanners_eq (msg : List Byte) :
    getBanners msg = (blocks 255 (msg.length / 255 + 1) msg).map VnsMessage.vnsBanner := by
  simp [getBanners, blocks, slice, Function.comp_def]

theorem getBannersAndClose_eq (msg : List Byte) :
    getBannersAndClose msg = (blocks 255 (msg.length / 255) msg).map VnsMessage.vnsBanner ++
      [.vnsClose ((msg.drop (msg.length / 255 * 255)).take 255)] := by
  have hinit : (List.range (msg.length / 255)).map (fun i =>
      if i + 1 < msg.length / 255 + 1 then VnsMessage.vnsBanner (slice msg (i * 255) 255)
      else .vnsClose (slice msg (i * 255) 255)) =
      (blocks 255 (msg.length / 255) msg).map VnsMessage.vnsBanner := by
    rw [blocks, List.map_map]
    apply List.map_congr_left
    intro i hi
    have hlt : i + 1 < msg.length / 255 + 1 := Nat.succ_lt_succ (List.mem_range.mp hi)
    rw [if_pos hlt]
    rfl
  simp only [getBannersAndClose, List.range_succ, List.map_append, List.map_singleton, hinit]
  rw [if_neg (Nat.lt_irrefl _)]
  rfl

/-- The texts that the functions make keep the message, and are as few as possible exactly if
the last of them is needed. -/
theorem splits_blocks_iff (msg : List Byte) :
    Splits msg (blocks 255 (msg.length / 255 + 1) msg) ↔ msg = [] ∨ ¬255 ∣ msg.length := by
  have hcount : msg.length / 255 + 1 = max 1 ((msg.length + 254) / 255) ↔
      msg = [] ∨ ¬255 ∣ msg.length := by
    rw [← List.length_eq_zero_iff]
    omega
  constructor
  · intro h
    apply hcount.mp
    have hlen := h.count
    rwa [length_blocks] at hlen
  · intro h
    have hmax := hcount.mpr h
    refine ⟨fun _ => length_le_of_mem_blocks, flatten_blocks_of_le (by omega), ?_, ?_⟩
    · rwa [length_blocks]
    · intro others hne hshort hwhole
      have hpos : 0 < others.length := List.length_pos_of_ne_nil hne
      have hlen := length_flatten_le hshort
      rw [hwhole] at hlen
      rw [length_blocks]
      omega

theorem eq_of_map_vnsBanner {texts texts' : List (List Byte)}
    (h : texts.map VnsMessage.vnsBanner = texts'.map VnsMessage.vnsBanner) : texts = texts' :=
  List.map_injective_iff.mpr (fun _ _ heq => VnsMessage.vnsBanner.inj heq) h

/-- Both functions do what they are for exactly with an empty text and with one whose length is
no multiple of 255. -/
theorem splitsUp_iff (msg : List Byte) : SplitsUp msg ↔ msg = [] ∨ ¬255 ∣ msg.length := by
  constructor
  · intro h
    obtain ⟨texts, heq, hsplits⟩ := h.banners
    rw [getBanners_eq] at heq
    rw [← splits_blocks_iff, eq_of_map_vnsBanner heq]
    exact hsplits
  · intro h
    have hsplits := (splits_blocks_iff msg).mpr h
    refine ⟨⟨_, getBanners_eq msg, hsplits⟩, ⟨_, _, getBannersAndClose_eq msg, ?_⟩⟩
    rwa [← blocks_succ]

/-- A text of 255 characters is sent in two banners, the second of them empty. -/
theorem not_splitsUp_full : ¬SplitsUp (List.replicate 255 (ascii 'a')) := by
  intro h
  obtain ⟨texts, heq, hsplits⟩ := h.banners
  have htwo := congrArg List.length heq
  rw [List.length_map, hsplits.count] at htwo
  exact absurd htwo (by decide +kernel)

end NetworkStack.Vns
