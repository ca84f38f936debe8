import WovenTeam.Policy
import WovenTeam.Roomd.Auth

/-!
# Comma-separated lists

The blocked vendors, the profiles of a host and the allowed addresses are lists of one kind with
two ways of reading them: `wtPolicyVendorIsBlocked` walks the text with a cursor,
`profileInList` and `ipAllowedByConfig` take a copy apart with `strtok_r`. `matchers_iff_entry`:
all three decide whether the item is one of the entries between the commas, without the blanks
around them.
-/

namespace WovenTeam

open CText

/-! ## Entries -/

/-- What stands between the commas, without the blanks around it. -/
def listEntries (list : Bytes) : List Bytes := (list.splitOn comma).map trimBlanks

theorem trimBlanks_cons {b : UInt8} (hb : isBlank b) (item : Bytes) :
    trimBlanks (b :: item) = trimBlanks item := by
  rw [trimBlanks, trimBlanks, List.dropWhile_cons_of_pos hb]

theorem listEntries_comma_cons (list : Bytes) :
    listEntries (comma :: list) = [] :: listEntries list := by
  simp [listEntries, List.splitOn, List.splitOnP_cons_eq_if_modifyHead, trimBlanks]

theorem listEntries_blank_cons {b : UInt8} (hb : isBlank b) (list : Bytes) :
    listEntries (b :: list) = listEntries list := by
  have hne : (b == comma) = false := by
    rw [isBlank, Bool.or_eq_true, beq_iff_eq, beq_iff_eq] at hb
    rcases hb with rfl | rfl <;> rfl
  obtain ⟨head, tail, h⟩ := List.exists_cons_of_ne_nil (List.splitOnP_ne_nil (· == comma) list)
  simp [listEntries, List.splitOn, List.splitOnP_cons_eq_if_modifyHead, hne, h, trimBlanks_cons hb]

/-- A token up to the end or to a comma is the first entry. -/
theorem listEntries_token {token rest : Bytes} (h : comma ∉ token)
    (hrest : rest.head? = none ∨ rest.head? = some comma) {item : Bytes} (hitem : item ≠ []) :
    item ∈ listEntries (token ++ rest) ↔ item = trimBlanks token ∨ item ∈ listEntries rest := by
  rcases rest with _ | ⟨b, rest⟩
  · simp [listEntries, splitOn_of_notMem h, trimBlanks, hitem]
  · obtain rfl : b = comma := by simpa using hrest
    rw [listEntries_comma_cons, listEntries, List.splitOn_append_cons_self, splitOn_of_notMem h]
    simp [listEntries, hitem]

/-! ## The cursor -/

/-- What `wtPolicyVendorIsBlocked` passes over in front of a token. -/
def isBetween (b : UInt8) : Bool := isBlank b || b == comma

/-- The token in front of the cursor is not empty. -/
theorem length_behind_token {start : Bytes} (h : ∀ b ∈ start.head?, isBetween b = false)
    (hne : start ≠ []) : (start.dropWhile (· != comma)).length < start.length := by
  rcases start with _ | ⟨b, rest⟩
  · exact absurd rfl hne
  · have hb : (b != comma) = true := by
      have := h b rfl
      rw [isBetween, Bool.or_eq_false_iff] at this
      simpa using this.2
    rw [List.dropWhile_cons_of_pos (p := (· != comma)) hb, List.length_cons]
    exact Nat.lt_succ_of_le (List.dropWhile_suffix _).length_le

theorem head?_dropBetween (cursor : Bytes) :
    ∀ b ∈ (cursor.dropWhile isBetween).head?, isBetween b = false := by
  intro b hb
  have := List.head?_dropWhile_not isBetween cursor
  rw [Option.mem_def] at hb
  rw [hb] at this
  exact this

/-- The loop of `wtPolicyVendorIsBlocked` from where its cursor stands. -/
def vendorWalk (modelFamily cursor : Bytes) : Bool :=
  let start := cursor.dropWhile isBetween
  if start = [] then false
  else
    let token := start.takeWhile (· != comma)
    if token.rdropWhile isBlank = modelFamily then true
    else vendorWalk modelFamily (start.dropWhile (· != comma))
termination_by cursor.length
decreasing_by
  rename_i hne _
  exact (length_behind_token (head?_dropBetween cursor) hne).trans_le
    (List.dropWhile_suffix _).length_le

theorem mem_listEntries_dropBetween {item : Bytes} (hitem : item ≠ []) (cursor : Bytes) :
    item ∈ listEntries (cursor.dropWhile isBetween) ↔ item ∈ listEntries cursor := by
  induction cursor with
  | nil => rfl
  | cons b cursor ih =>
    by_cases hblank : isBlank b = true
    · rw [List.dropWhile_cons_of_pos (by simp [isBetween, hblank]), ih,
        listEntries_blank_cons hblank]
    · by_cases hcomma : b = comma
      · subst hcomma
        rw [List.dropWhile_cons_of_pos rfl, ih, listEntries_comma_cons, List.mem_cons]
        simp [hitem]
      · rw [List.dropWhile_cons_of_neg (by simp [isBetween, hblank, hcomma])]

/-- A token that starts behind the blanks is trimmed at its end only. -/
theorem trimBlanks_token {start : Bytes} (h : ∀ b ∈ start.head?, isBetween b = false) :
    trimBlanks (start.takeWhile (· != comma)) =
      (start.takeWhile (· != comma)).rdropWhile isBlank := by
  rw [trimBlanks]
  congr 1
  rcases start with _ | ⟨b, rest⟩
  · rfl
  · have hb := h b rfl
    rw [isBetween, Bool.or_eq_false_iff, beq_eq_false_iff_ne] at hb
    rw [List.takeWhile_cons_of_pos (p := (· != comma)) (by simpa using hb.2),
      List.dropWhile_cons_of_neg (by simp [hb.1])]

/-- Behind the blanks stand the token and what the cursor goes on from. -/
theorem mem_listEntries_token {item : Bytes} (hitem : item ≠ []) {start : Bytes}
    (h : ∀ b ∈ start.head?, isBetween b = false) :
    item ∈ listEntries start ↔ item = (start.takeWhile (· != comma)).rdropWhile isBlank ∨
      item ∈ listEntries (start.dropWhile (· != comma)) := by
  have htoken : comma ∉ start.takeWhile (· != comma) := fun hmem =>
    absurd (List.mem_takeWhile_imp hmem) (by decide)
  have hrest : (start.dropWhile (· != comma)).head? = none ∨
      (start.dropWhile (· != comma)).head? = some comma := by
    have := List.head?_dropWhile_not (· != comma) start
    cases hhead : (start.dropWhile (· != comma)).head? with
    | none => exact .inl rfl
    | some b =>
      rw [hhead] at this
      exact .inr (by simpa using this)
  have hsplit := listEntries_token htoken hrest hitem
  rwa [List.takeWhile_append_dropWhile, trimBlanks_token h] at hsplit

/-- **The cursor finds the family where it is an entry of the list.** -/
theorem vendorWalk_iff {modelFamily : Bytes} (hfamily : modelFamily ≠ []) (cursor : Bytes) :
    vendorWalk modelFamily cursor = true ↔ modelFamily ∈ listEntries cursor := by
  fun_induction vendorWalk modelFamily cursor with
  | case1 cursor start hnil =>
    have hstart : cursor.dropWhile isBetween = [] := hnil
    have hempty : listEntries [] = [[]] := rfl
    rw [← mem_listEntries_dropBetween hfamily, hstart, hempty]
    simp [hfamily]
  | case2 cursor start hne token heq =>
    rw [← mem_listEntries_dropBetween hfamily,
      mem_listEntries_token hfamily (head?_dropBetween cursor)]
    exact iff_of_true rfl (.inl heq.symm)
  | case3 cursor start hne token hother ih =>
    rw [ih, ← mem_listEntries_dropBetween hfamily cursor,
      mem_listEntries_token hfamily (head?_dropBetween cursor)]
    exact (or_iff_right fun h => hother h.symm).symm

/-! ## The copies -/

def ipAllowedByConfig (config : WtConfig) (peerIp : Bytes) : Bool :=
  if peerIp = [] then false else inCommaList wtPathSize config.remoteAllowedIps.text peerIp

/-- The items `strtok_r` leaves out have no entry but the empty one. -/
theorem mem_trimmed_iff {item : Bytes} (hitem : item ≠ []) (list : Bytes) :
    (∃ token ∈ strtok comma list, trimBlanks token = item) ↔ item ∈ listEntries list := by
  rw [listEntries, List.mem_map]
  refine exists_congr fun token => ?_
  rw [strtok, List.mem_filter, bne_iff_ne]
  constructor
  · exact fun h => ⟨h.1.1, h.2⟩
  · rintro ⟨hmem, rfl⟩
    refine ⟨⟨hmem, ?_⟩, rfl⟩
    rintro rfl
    exact hitem rfl

/-- **A copy that holds the whole list finds the item or the asterisk among the entries.** -/
theorem inCommaList_iff {size : Nat} {list item : Bytes} (hfits : list.length < size)
    (hitem : item ≠ []) :
    inCommaList size list item = true ↔ item ∈ listEntries list ∨ bytes "*" ∈ listEntries list := by
  have hany : bytes "*" ≠ [] := by decide
  rw [inCommaList, snprintf_of_lt hfits, List.any_eq_true, ← mem_trimmed_iff hitem,
    ← mem_trimmed_iff hany, ← exists_or]
  refine exists_congr fun token => ?_
  rw [Bool.or_eq_true, beq_iff_eq, beq_iff_eq, ← and_or_left]
  exact and_congr_right fun _ => or_comm

/-- `vendorWalk` is the loop of the matcher the policy calls. -/
theorem wtPolicyVendorIsBlocked_eq (blockedVendors : Bytes) {modelFamily : Bytes}
    (hfamily : modelFamily ≠ []) :
    wtPolicyVendorIsBlocked blockedVendors modelFamily =
      vendorWalk modelFamily blockedVendors := by
  rw [Bool.eq_iff_iff, vendorWalk_iff hfamily, ← mem_trimmed_iff hfamily,
    wtPolicyVendorIsBlocked, Bool.and_eq_true, List.any_eq_true]
  simp [hfamily]

/-- **The three matchers decide membership.** The vendor matcher looks for the item alone, the
other two for the item or an asterisk; where all entries are empty, none of them finds
anything. -/
theorem matchers_iff_entry (list item : Bytes) (hitem : item ≠ []) :
    (wtPolicyVendorIsBlocked list item = vendorWalk item list ∧
      (vendorWalk item list = true ↔ item ∈ listEntries list)) ∧
    (list.length < 256 →
      (profileInList list item = true ↔ item ∈ listEntries list ∨ bytes "*" ∈ listEntries list)) ∧
    (∀ config : WtConfig, config.remoteAllowedIps.text = list →
      (ipAllowedByConfig config item = true ↔
        item ∈ listEntries list ∨ bytes "*" ∈ listEntries list)) ∧
    ((∀ entry ∈ listEntries list, entry = []) → vendorWalk item list = false ∧
      (list.length < 256 → profileInList list item = false) ∧
      ∀ config : WtConfig, config.remoteAllowedIps.text = list →
        ipAllowedByConfig config item = false) := by
  have hprofile (hfits : list.length < 256) :
      profileInList list item = true ↔ item ∈ listEntries list ∨ bytes "*" ∈ listEntries list := by
    rw [profileInList, if_neg hitem]
    split
    · rename_i hnil
      subst hnil
      have hempty : listEntries [] = [[]] := rfl
      have hany : bytes "*" ≠ [] := by decide
      simp [hempty, hitem, hany]
    · exact inCommaList_iff hfits hitem
  have hip (config : WtConfig) (hlist : config.remoteAllowedIps.text = list) :
      ipAllowedByConfig config item = true ↔
        item ∈ listEntries list ∨ bytes "*" ∈ listEntries list := by
    rw [ipAllowedByConfig, if_neg hitem, inCommaList_iff config.remoteAllowedIps.fits hitem, hlist]
  refine ⟨⟨wtPolicyVendorIsBlocked_eq list hitem, vendorWalk_iff hitem list⟩, hprofile, hip, ?_⟩
  intro hempty
  have hnone : ¬ (item ∈ listEntries list ∨ bytes "*" ∈ listEntries list) := by
    rintro (h | h)
    · exact hitem (hempty _ h)
    · exact absurd (hempty _ h) (by decide)
  refine ⟨?_, fun hfits => ?_, fun config hlist => ?_⟩
  · exact Bool.eq_false_iff.mpr fun h => hnone (.inl ((vendorWalk_iff hitem list).mp h))
  · exact Bool.eq_false_iff.mpr fun h => hnone ((hprofile hfits).mp h)
  · exact Bool.eq_false_iff.mpr fun h => hnone ((hip config hlist).mp h)

theorem vendorWalk_finds_second : vendorWalk (bytes "xai") (bytes " deepseek,, xai ,") = true :=
  ((matchers_iff_entry (bytes " deepseek,, xai ,") (bytes "xai") (by decide)).1.2).mpr (by decide)

end WovenTeam
