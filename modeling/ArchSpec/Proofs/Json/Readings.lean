import Mathlib.Data.List.Forall2
import ArchSpec.Program.Encode

/-!
# What decoders read

A decoder reads a value from a tree if no bound on nesting is too small that
the tree itself keeps to.  This says nothing about the bound, so the readings of
the parts of a tree can be put together to one of the whole, in the shape in
which the encoding has put the parts together.
-/

namespace ArchSpec.Json

/-! ## Depths -/

@[simp]
theorem depth_str (text : String) : (str text).depth = 0 := rfl

@[simp]
theorem depth_arr (items : List Json) : (arr items).depth = depthItems items + 1 := rfl

@[simp]
theorem depth_obj (entries : Named Json) : (obj entries).depth = depthEntries entries + 1 := rfl

@[simp]
theorem depth_tagged (tag : String) (content : Json) :
    (tagged tag content).depth = content.depth + 1 := by
  simp [tagged, depthEntries]

@[simp]
theorem depthItems_cons (first : Json) (rest : List Json) :
    depthItems (first :: rest) = max first.depth (depthItems rest) := rfl

theorem depth_le_of_get? {entries : Named Json} {name : String} {json : Json}
    (hjson : Named.get? entries name = some json) : json.depth ≤ depthEntries entries := by
  induction entries with
  | nil => nomatch hjson
  | cons entry rest ih =>
      obtain ⟨other, first⟩ := entry
      rw [Named.get?] at hjson
      rw [depthEntries]
      split at hjson
      · cases hjson
        exact Nat.le_max_left ..
      · exact Nat.le_trans (ih hjson) (Nat.le_max_right ..)

namespace Decoder

variable {α β : Type} {item : Decoder α} {json : Json} {value : α}

/-- The value comes out at every level that is enough for the tree. -/
def Reads (decode : Decoder α) (json : Json) (value : α) : Prop :=
  ∀ level, json.depth ≤ level → decode level json = some value

/-! ## Simple values -/

theorem reads_text (s : String) : Reads text (.str s) s := fun _ _ => rfl

theorem reads_flag (b : Bool) : Reads flag (.bool b) b := fun _ _ => rfl

theorem reads_natBelow {n bound : Nat} (hn : n < bound) : Reads (natBelow bound) (.nat n) n := by
  intro level _
  have hint : (0 : Int) ≤ n ∧ (n : Int) < bound := by omega
  rw [nat, natBelow, if_pos hint, Int.toNat_natCast]

theorem reads_word (n : UInt32) : Reads word (.nat n.toNat) n := by
  intro level hlevel
  have hnat := reads_natBelow (show n.toNat < pow2 32 from n.toNat_lt) level hlevel
  rw [word, hnat, Option.map_some, UInt32.ofNat_toNat]

theorem reads_size (n : UInt64) : Reads size (.nat n.toNat) n := by
  intro level hlevel
  have hnat := reads_natBelow (show n.toNat < Size.bound from n.toNat_lt) level hlevel
  rw [size, hnat, Option.map_some, UInt64.ofNat_toNat]

theorem Reads.present (hread : Reads item json value) (hnull : json ≠ .null) :
    Reads (optional item) json (some value) := by
  intro level hlevel
  have hitem := hread level hlevel
  cases json with
  | null => exact absurd rfl hnull
  | _ => rw [optional, hitem, Option.map_some]; exact nofun

/-- What is missing is null, and nothing else is. -/
theorem reads_optional {encode : α → Json} (value : Option α)
    (hitem : ∀ present, Reads item (encode present) present)
    (hnull : ∀ present, encode present ≠ .null) :
    Reads (optional item) (ofOption (value.map encode)) value := by
  cases value with
  | none => exact fun _ _ => rfl
  | some present => exact (hitem present).present (hnull present)

/-! ## Arrays -/

theorem all_eq_some {items : List Json} {values : List α} {level : Nat}
    (hitems : List.Forall₂ (Reads item) items values) (hlevel : depthItems items ≤ level) :
    all item level items = some values := by
  induction hitems with
  | nil => rfl
  | cons hfirst _ ih =>
      rw [depthItems_cons] at hlevel
      rw [all, hfirst level (by omega), ih (by omega)]
      rfl

theorem Reads.list {items : List Json} {values : List α}
    (hitems : List.Forall₂ (Reads item) items values) :
    Reads (list item) (.arr items) values := by
  intro level hlevel
  cases level with
  | zero => simp at hlevel
  | succ level => exact all_eq_some hitems (Nat.le_of_succ_le_succ hlevel)

theorem Reads.pair {second : Decoder β} {right : Json} {other : β} (hleft : Reads item json value)
    (hright : Reads second right other) :
    Reads (pair item second) (.arr [json, right]) (value, other) := by
  intro level hlevel
  cases level with
  | zero => simp at hlevel
  | succ level =>
      simp only [depth_arr, depthItems_cons] at hlevel
      rw [Decoder.pair, hleft level (by omega), hright level (by omega)]
      rfl

/-- What an encoding maps to is read back one by one. -/
theorem reads_each {encode : α → Json} (hitem : ∀ value, Reads item (encode value) value)
    (values : List α) : List.Forall₂ (Reads item) (values.map encode) values := by
  rw [List.forall₂_map_left_iff, List.forall₂_same]
  exact fun value _ => hitem value

/-! ## Choices -/

theorem choice_tagged {read : String → Option Json → Nat → Option α} {tag : String} {level : Nat}
    (hlevel : (tagged tag json).depth ≤ level)
    (hread : ∀ level, json.depth ≤ level → read tag (some json) level = some value) :
    choice read level (tagged tag json) = some value := by
  rw [depth_tagged] at hlevel
  cases level with
  | zero => omega
  | succ level => exact hread level (Nat.le_of_succ_le_succ hlevel)

theorem content_eq_some {level : Nat} (hitem : Reads item json value) (hlevel : json.depth ≤ level)
    (make : α → β) : (content item (some json) level).map make = some (make value) := by
  rw [content, hitem level hlevel, Option.map_some]

/-! ## Objects with known fields -/

section Fields

variable {entries : Named Json} {names : List String} {field : String} {level : Nat}

/-- The fields that an encoding gives are all found again. -/
theorem fields_bind_eq_some {listed : Bool} {next : Fields → Option α}
    (hnames : Named.names entries = names) (hdistinct : Named.repeats names = [])
    (hlevel : (obj entries).depth ≤ level)
    (hnext : ∀ level, depthEntries entries ≤ level → next ⟨level, entries⟩ = some value) :
    (fields listed names level (.obj entries) >>= next) = some value := by
  rw [depth_obj] at hlevel
  cases level with
  | zero => omega
  | succ level =>
      have hknown : entries.filter (fun entry => names.contains entry.1) = entries := by
        rw [List.filter_eq_self]
        intro entry hentry
        rw [List.contains_iff_mem, ← hnames]
        exact List.mem_map_of_mem hentry
      have hentries : knownEntries names entries = some entries := by
        rw [knownEntries]
        simp only [hknown, hnames, hdistinct, if_true]
      rw [fields, hentries]
      exact hnext level (Nat.le_of_succ_le_succ hlevel)

theorem required_eq_some (hjson : Named.get? entries field = some json)
    (hitem : Reads item json value) (hlevel : depthEntries entries ≤ level) :
    Fields.required ⟨level, entries⟩ field item = some value := by
  rw [Fields.required]
  simp only [hjson, Option.bind_eq_bind, Option.bind_some]
  exact hitem level (Nat.le_trans (depth_le_of_get? hjson) hlevel)

theorem optional_eq_some {value : Option α} (hjson : Named.get? entries field = some json)
    (hitem : Reads (optional item) json value) (hlevel : depthEntries entries ≤ level) :
    Fields.optional ⟨level, entries⟩ field item = some value := by
  rw [Fields.optional, hjson]
  exact hitem level (Nat.le_trans (depth_le_of_get? hjson) hlevel)

end Fields

/-! ## Integers -/

theorem ofLimbs_limbs (n : Nat) : ofLimbs (limbs n) = n := by
  induction n using limbs.induct with
  | case1 => rw [limbs, dif_pos rfl, ofLimbs]
  | case2 n hpos ih => rw [limbs, dif_neg hpos, ofLimbs, ih, Nat.mod_add_div]

theorem lt_of_mem_limbs {n digit : Nat} (hdigit : digit ∈ limbs n) : digit < limbBase := by
  induction n using limbs.induct with
  | case1 =>
      rw [limbs, dif_pos rfl] at hdigit
      nomatch hdigit
  | case2 n hpos ih =>
      rw [limbs, dif_neg hpos] at hdigit
      rcases List.mem_cons.mp hdigit with rfl | hrest
      · exact Nat.mod_lt n (by decide)
      · exact ih hrest

theorem reads_sign (n : Int) : Reads sign (.int n.sign) n.sign := by
  intro level _
  have hsign : n.sign = -1 ∨ n.sign = 0 ∨ n.sign = 1 := by
    rcases Int.lt_trichotomy n 0 with hneg | rfl | hpos
    · exact .inl (Int.sign_eq_neg_one_of_neg hneg)
    · exact .inr (.inl rfl)
    · exact .inr (.inr (Int.sign_eq_one_of_pos hpos))
  rw [sign, if_pos hsign]

/-- Digits below the base are words. -/
theorem forall₂_reads_words {digits : List Nat} (hdigits : ∀ digit ∈ digits, digit < limbBase) :
    List.Forall₂ (Reads word) (digits.map .nat) (digits.map UInt32.ofNat) := by
  rw [List.forall₂_map_left_iff, List.forall₂_map_right_iff, List.forall₂_same]
  intro digit hdigit
  have hword := reads_word (UInt32.ofNat digit)
  rwa [UInt32.toNat_ofNat_of_lt' (hdigits digit hdigit)] at hword

theorem reads_integer (n : Int) : Reads integer (ofInteger n) n := by
  intro level hlevel
  have hdigits : ∀ digit ∈ limbs n.natAbs, digit < limbBase := fun _ => lt_of_mem_limbs
  have hpair := Reads.pair (reads_sign n) (.list (forall₂_reads_words hdigits)) level hlevel
  have hsame : ((limbs n.natAbs).map UInt32.ofNat).map UInt32.toNat = limbs n.natAbs := by
    rw [List.map_map]
    conv_rhs => rw [← List.map_id (limbs n.natAbs)]
    exact List.map_congr_left fun digit hdigit =>
      UInt32.toNat_ofNat_of_lt' (hdigits digit hdigit)
  rw [integer, ofInteger, hpair]
  change some (n.sign * (ofLimbs _ : Int)) = some n
  rw [hsame, ofLimbs_limbs, Int.sign_mul_natAbs]

end Decoder

end ArchSpec.Json
