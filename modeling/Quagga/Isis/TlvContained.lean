import Quagga.Isis.Tlv

/-!
# Where the TLV parser reads and records

The loops over the entries of a TLV test only whether another entry starts inside the TLV. So the
parser stays inside the TLVs exactly on packets in which the entries of every TLV it is asked for
fill the TLV.
-/

namespace Quagga.Isis

open Foundation List Option EntryLayout Nat

variable {entry : TlvEntry} {first : Nat}

section

variable (stream : Nat → UInt8) (size : Int) (expected : Nat)

/-! ## What is to hold -/

/-- The moves of a cursor that starts at 0. -/
inductive Linked : List (Nat × Nat) → Nat → Prop
  | start : Linked [] 0
  | move {moves : List (Nat × Nat)} {tlv : Nat} (cursor : Nat) :
      Linked moves tlv → Linked (moves ++ [(tlv, cursor)]) cursor

def Inside (tlv : Nat) (entry : TlvEntry) : Prop :=
  entry.type = typeAt stream tlv ∧ tlv + 2 ≤ entry.start ∧
    entry.stop ≤ tlv + 2 + lengthAt stream tlv

structure Contained (parse : TlvParse) : Prop where
  reads : ∀ offset ∈ parse.reads, (offset : Int) < size
  linked : ∃ cursor, Linked parse.moves cursor
  moves : ∀ move ∈ parse.moves, move.2 = move.1 + 2 + lengthAt stream move.1
  entries : ∀ entry ∈ parse.tlvs.entries, ∃ move ∈ parse.moves, Inside stream move.1 entry ∧
    (move.1 + 2 + lengthAt stream move.1 : Nat) ≤ size

/-! ## The packets -/

def Complete (tlv : Nat) : Prop := tlv < size - 2 ∧ (tlv + 2 + lengthAt stream tlv : Nat) ≤ size

/-- The parser gives up at an authentication TLV without a value. -/
def GivesUp (tlv : Nat) : Prop :=
  typeAt stream tlv = .authInfo ∧ (TlvType.authInfo).isExpected expected = true ∧
    lengthAt stream tlv = 0

/-- The starts of TLVs by the declared lengths. -/
inductive Declared : Nat → Prop
  | first : Declared 0
  | next {tlv : Nat} : Declared tlv → Complete stream size tlv → ¬ GivesUp stream expected tlv →
      Declared (tlv + 2 + lengthAt stream tlv)

/-- The layout of the entries of a type, and where in the value the first one starts. -/
def TlvType.entryLayout? : TlvType → Option (EntryLayout × Nat)
  | areaAddresses => some (.areaAddr, 0)
  | isNeighbours => some (.isNeigh, 1)
  | teIsNeighbours => some (.teIsNeigh, 0)
  | esNeighbours => some (.esNeighId, 4)
  | lanNeighbours => some (.lanNeigh, 0)
  | lspEntries => some (.lspEntry, 0)
  | ipv4Addr => some (.ipv4Addr, 0)
  | ipv4IntReachability => some (.ipv4Reach, 0)
  | ipv4ExtReachability => some (.ipv4Reach, 0)
  | teIpv4Reachability => some (.teIpv4Reach, 0)
  | ipv6Addr => some (.ipv6Addr, 0)
  | ipv6Reachability => some (.ipv6Reach, 0)
  | _ => none

/-- The entries fill the region up to its limit. At an invalid entry the loop may be left, if the
octet that says so is in the packet. -/
def EntryLayout.Tiles (layout : EntryLayout) (limit position : Nat) : Prop :=
  Tiled (layout.stride stream) limit (fun entry => (entry + layout.look?.getD 0 : Nat) < size)
    position

/-- If the caller asks for the TLV, its entries fill it. -/
def Fits (tlv : Nat) : Prop :=
  ∀ layout first, (typeAt stream tlv).entryLayout? = some (layout, first) →
    (typeAt stream tlv).isExpected expected = true →
    layout.Tiles stream size (tlv + 2 + lengthAt stream tlv) (tlv + 2 + first)

end

variable {stream : Nat → UInt8} {size : Int} {expected : Nat}

/-! ## Layouts -/

namespace EntryLayout

/-- The octet that measures an entry is part of the entry, and where there is none every entry has
a size. -/
structure Valid (layout : EntryLayout) : Prop where
  looksInside : ∀ octet size, layout.size? octet = some size → layout.look?.getD 0 < size
  measured : layout.look? = none → ∀ octet, layout.size? octet ≠ none

theorem fixed_valid {size : Nat} (positive : 0 < size) : (fixed size).Valid where
  looksInside := by
    rintro octet size ⟨⟩
    exact positive
  measured _ _ := some_ne_none _

theorem areaAddr_valid : areaAddr.Valid where
  looksInside := by
    rintro octet size ⟨⟩
    exact succ_pos _
  measured := nofun

theorem teIsNeigh_valid : teIsNeigh.Valid where
  looksInside := by
    rintro octet size ⟨⟩
    exact lt_of_lt_of_le (by decide : 10 < 11) (le_add_right _ _)
  measured := nofun

theorem teIpv4Reach_valid : teIpv4Reach.Valid where
  looksInside := by
    intro octet size measured
    simp only [teIpv4Reach] at measured ⊢
    split at measured
    · cases measured
    · cases measured
      exact lt_of_lt_of_le (by decide : 4 < 5) (le_add_right _ _)
  measured := nofun

theorem ipv6Reach_valid : ipv6Reach.Valid where
  looksInside := by
    intro octet size measured
    simp only [ipv6Reach] at measured ⊢
    split at measured
    · cases measured
    · cases measured
      exact lt_of_lt_of_le (by decide : 5 < 6) (le_add_left _ _)
  measured := nofun

variable {layout : EntryLayout} {limit position : Nat}

theorem Valid.positive (valid : layout.Valid) :
    ∀ position size, layout.stride stream position = some size → 0 < size := fun _ size measured =>
  lt_of_le_of_lt (zero_le _) (valid.looksInside _ size measured)

theorem Valid.unbroken (valid : layout.Valid) (never : ∀ octet, layout.size? octet ≠ none) :
    (layout.loop stream limit position).broken = false := by
  rw [Bool.eq_false_iff]
  intro isBroken
  exact never _ ((strides_ends valid.positive (le_refl _)).1 isBroken).2

theorem Valid.looks_iff (valid : layout.Valid) (limit_le : (limit : Int) ≤ size)
    (within : ∀ entry ∈ (layout.loop stream limit position).entries, entry.2 ≤ limit) :
    (∀ offset ∈ layout.looks (layout.loop stream limit position), (offset : Int) < size) ↔
      ((layout.loop stream limit position).broken = true →
        ((layout.loop stream limit position).cursor + layout.look?.getD 0 : Nat) < size) := by
  rw [looks]
  cases looks : layout.look? with
  | none =>
    rw [valid.unbroken (valid.measured looks)]
    simp
  | some look =>
    have inEntries : ∀ offset ∈ (layout.loop stream limit position).entries.map
        (fun entry => entry.1 + look), (offset : Int) < size := by
      intro offset isLook
      rcases mem_map.mp isLook with ⟨entry, isEntry, rfl⟩
      rcases strides_entry isEntry with ⟨_, _, _, measured, sized, ends⟩
      have inside := valid.looksInside _ _ sized
      have fits := within entry isEntry
      simp only [looks, getD_some] at inside
      omega
    simp only [forall_mem_append]
    rw [and_iff_right inEntries]
    cases (layout.loop stream limit position).broken <;> simp

theorem Valid.tiles_iff (valid : layout.Valid) (limit_le : (limit : Int) ≤ size) :
    layout.Tiles stream size limit position ↔
      (∀ entry ∈ (layout.loop stream limit position).entries, entry.2 ≤ limit) ∧
      (∀ offset ∈ layout.looks (layout.loop stream limit position), (offset : Int) < size) ∧
      ((layout.loop stream limit position).broken = false →
        (layout.loop stream limit position).cursor = limit) := by
  rw [Tiles, Foundation.tiled_iff valid.positive (le_refl _)]
  apply and_congr_right
  intro within
  rw [valid.looks_iff limit_le within]
  rfl

end EntryLayout

/-! ## One TLV -/

/-- What the parser does with a TLV stays in the packet and in the TLV. -/
structure Stays (stream : Nat → UInt8) (size : Int) (tlv : Nat) (handled : Handled) : Prop where
  reads : ∀ offset ∈ handled.reads, (offset : Int) < size
  cursor : ∀ cursor, handled.cursor? = some cursor → cursor = tlv + 2 + lengthAt stream tlv
  entries : ∀ entry ∈ handled.entries, Inside stream tlv entry

variable {tlv : Nat} {layout : EntryLayout}

theorem inside_recordEntries_iff :
    (∀ entry ∈ (recordEntries stream (typeAt stream tlv) layout (tlv + 2 + lengthAt stream tlv)
        (tlv + 2 + first)).entries, Inside stream tlv entry) ↔
      ∀ entry ∈ (layout.loop stream (tlv + 2 + lengthAt stream tlv) (tlv + 2 + first)).entries,
        entry.2 ≤ tlv + 2 + lengthAt stream tlv := by
  rw [recordEntries, List.forall_mem_map]
  apply forall₂_congr
  intro entry isEntry
  have behind := (strides_entry isEntry).1
  exact ⟨fun inside => inside.2.2, fun fits =>
    ⟨rfl, le_trans (le_add_right _ first) behind, fits⟩⟩

theorem stays_recordEntries (valid : layout.Valid) (never : ∀ octet, layout.size? octet ≠ none)
    (complete : Complete stream size tlv) (first : Nat) :
    Stays stream size tlv (recordEntries stream (typeAt stream tlv) layout
        (tlv + 2 + lengthAt stream tlv) (tlv + 2 + first)) ↔
      layout.Tiles stream size (tlv + 2 + lengthAt stream tlv) (tlv + 2 + first) := by
  rw [valid.tiles_iff complete.2, ← inside_recordEntries_iff]
  have unbroken : (layout.loop stream (tlv + 2 + lengthAt stream tlv) (tlv + 2 + first)).broken =
      false := valid.unbroken never
  refine ⟨?_, ?_⟩
  · intro stays
    exact ⟨stays.entries, stays.reads, fun _ => stays.cursor _ rfl⟩
  · rintro ⟨entries, reads, cursor⟩
    refine ⟨reads, ?_, entries⟩
    rintro _ ⟨⟩
    exact cursor unbroken

theorem stays_recordEntries_reset (valid : layout.Valid) (complete : Complete stream size tlv) :
    Stays stream size tlv { recordEntries stream (typeAt stream tlv) layout
        (tlv + 2 + lengthAt stream tlv) (tlv + 2) with
        cursor? := some (tlv + 2 + lengthAt stream tlv) } ↔
      layout.Tiles stream size (tlv + 2 + lengthAt stream tlv) (tlv + 2 + 0) := by
  rw [valid.tiles_iff complete.2, ← inside_recordEntries_iff]
  refine ⟨?_, ?_⟩
  · intro stays
    refine ⟨stays.entries, stays.reads, fun unbroken => ?_⟩
    apply le_antisymm
    · exact strides_cursor_le (le_add_right _ _) (inside_recordEntries_iff.mp stays.entries)
    · exact (strides_ends valid.positive (le_refl _)).2 unbroken
  · rintro ⟨entries, reads, _⟩
    refine ⟨reads, ?_, entries⟩
    rintro _ ⟨⟩
    rfl

theorem stays_recordPointer (tlv : Nat) (note : Tlvs → Tlvs) :
    Stays stream size tlv (recordPointer (lengthAt stream tlv) (tlv + 2) note) where
  reads := nofun
  cursor := by
    rintro _ ⟨⟩
    rfl
  entries := nofun

theorem stays_isNeighs (isType : typeAt stream tlv = .isNeighbours)
    (complete : Complete stream size tlv) :
    Stays stream size tlv (recordIsNeighs stream (tlv + 2 + lengthAt stream tlv) (tlv + 2)) ↔
      isNeigh.Tiles stream size (tlv + 2 + lengthAt stream tlv) (tlv + 2 + 1) := by
  have valid : isNeigh.Valid := fixed_valid (by decide)
  rw [← stays_recordEntries valid (fun _ => some_ne_none _) complete 1, isType]
  have flagInside : ((tlv + 2 : Nat) : Int) < size := by
    have header := complete.1
    omega
  refine ⟨fun stays => ⟨?_, stays.cursor, stays.entries⟩,
    fun stays => ⟨?_, stays.cursor, stays.entries⟩⟩
  · exact (forall_mem_cons.mp stays.reads).2
  · exact forall_mem_cons.mpr ⟨flagInside, stays.reads⟩

theorem stays_esNeighs (isType : typeAt stream tlv = .esNeighbours)
    (complete : Complete stream size tlv) :
    Stays stream size tlv (recordEsNeighs stream (tlv + 2 + lengthAt stream tlv) (tlv + 2)) ↔
      esNeighId.Tiles stream size (tlv + 2 + lengthAt stream tlv) (tlv + 2 + 4) := by
  have valid : esNeighId.Valid := fixed_valid (by decide)
  have never : ∀ octet, esNeighId.size? octet ≠ none := fun _ =>
    some_ne_none _
  rw [valid.tiles_iff complete.2]
  refine ⟨?_, ?_⟩
  · intro stays
    have atEnd := stays.cursor _ rfl
    refine ⟨?_, nofun, fun _ => atEnd⟩
    intro entry isEntry
    exact le_trans (strides_entry isEntry).2.2.1 (le_of_eq atEnd)
  · rintro ⟨_, _, cursor⟩
    have atEnd := cursor (valid.unbroken never)
    refine ⟨nofun, ?_, ?_⟩
    · rintro _ ⟨⟩
      exact atEnd
    · intro entry isEntry
      rw [mem_singleton.mp isEntry]
      exact ⟨isType.symm, le_refl _, le_of_eq atEnd⟩

theorem stays_authInfo (complete : Complete stream size tlv) :
    Stays stream size tlv (recordAuthInfo stream (lengthAt stream tlv) (tlv + 2)) := by
  rcases complete with ⟨header, value⟩
  rw [recordAuthInfo]
  split
  · refine ⟨?_, ?_, forall_mem_nil _⟩
    · intro offset isRead
      rw [mem_singleton.mp isRead]
      omega
    · rintro _ ⟨⟩
  · refine ⟨?_, ?_, forall_mem_nil _⟩
    · intro offset isRead
      rcases mem_cons.mp isRead with rfl | isPasswd
      · omega
      · rcases mem_map.mp isPasswd with ⟨index, isIndex, rfl⟩
        rw [mem_range] at isIndex
        omega
    · rintro _ ⟨⟩
      omega

section

variable {type : TlvType}

theorem fits_iff (isType : typeAt stream tlv = type)
    (hasLayout : type.entryLayout? = some (layout, first))
    (isExpected : type.isExpected expected = true) :
    Fits stream size expected tlv ↔
      layout.Tiles stream size (tlv + 2 + lengthAt stream tlv) (tlv + 2 + first) := by
  subst isType
  refine ⟨fun fits => fits layout first hasLayout isExpected, ?_⟩
  rintro tiles _ _ otherLayout _
  cases hasLayout.symm.trans otherLayout
  exact tiles

theorem fits_of_none (isType : typeAt stream tlv = type) (noLayout : type.entryLayout? = none) :
    Fits stream size expected tlv := by
  subst isType
  intro layout first hasLayout
  exact nomatch noLayout.symm.trans hasLayout

variable (complete : Complete stream size tlv)
include complete

section

variable (isType : typeAt stream tlv = type) (isExpected : type.isExpected expected = true)
  (hasLayout : type.entryLayout? = some (layout, 0)) (valid : layout.Valid)
include isType isExpected hasLayout valid

theorem stays_iff_fits (never : ∀ octet, layout.size? octet ≠ none) :
    Stays stream size tlv (recordEntries stream type layout (tlv + 2 + lengthAt stream tlv)
        (tlv + 2)) ↔ Fits stream size expected tlv := by
  rw [fits_iff isType hasLayout isExpected, ← stays_recordEntries valid never complete 0, isType]

theorem stays_reset_iff_fits :
    Stays stream size tlv { recordEntries stream type layout (tlv + 2 + lengthAt stream tlv)
        (tlv + 2) with cursor? := some (tlv + 2 + lengthAt stream tlv) } ↔
      Fits stream size expected tlv := by
  rw [fits_iff isType hasLayout isExpected, ← stays_recordEntries_reset valid complete, isType]

end

theorem stays_handleAt_iff :
    Stays stream size tlv (handleAt stream expected tlv) ↔ Fits stream size expected tlv := by
  rw [handleAt, handle]
  by_cases isExpected : (typeAt stream tlv).isExpected expected = true
  · rw [if_pos isExpected]
    cases isType : typeAt stream tlv <;> rw [isType] at isExpected
    case areaAddresses =>
      exact stays_iff_fits complete isType isExpected rfl areaAddr_valid fun _ =>
        some_ne_none _
    case isNeighbours =>
      exact (stays_isNeighs isType complete).trans (fits_iff isType rfl isExpected).symm
    case teIsNeighbours =>
      exact stays_iff_fits complete isType isExpected rfl teIsNeigh_valid fun _ =>
        some_ne_none _
    case esNeighbours =>
      exact (stays_esNeighs isType complete).trans (fits_iff isType rfl isExpected).symm
    case authInfo => exact iff_of_true (stays_authInfo complete) (fits_of_none isType rfl)
    case teIpv4Reachability =>
      exact stays_reset_iff_fits complete isType isExpected rfl teIpv4Reach_valid
    case ipv6Reachability =>
      exact stays_reset_iff_fits complete isType isExpected rfl ipv6Reach_valid
    case checksum | protocolsSupported | dynamicHostname | teRouterId =>
      exact iff_of_true (stays_recordPointer tlv _) (fits_of_none isType rfl)
    case way3Hello | gracefulRestart | padding | unsupported =>
      exact iff_of_true (stays_recordPointer tlv id) (fits_of_none isType rfl)
    all_goals
      exact stays_iff_fits complete isType isExpected rfl (fixed_valid (by decide))
        fun _ => some_ne_none _
  · rw [if_neg isExpected]
    refine ⟨?_, fun _ => stays_recordPointer tlv id⟩
    intro _ layout first _ asked
    exact absurd asked isExpected

end

/-! ## The loop -/

def TlvParse.take (stream : Nat → UInt8) (expected tlv : Nat) (parse : TlvParse) : TlvParse :=
  TlvParse.add stream { parse with reads := parse.reads ++ [tlv, tlv + 1] } tlv
    (handleAt stream expected tlv)

section

variable {parse : TlvParse}

/-- All that a turn of the loop can do. -/
inductive Taken (stream : Nat → UInt8) (size : Int) (expected tlv : Nat) (parse : TlvParse) :
    Turn (Nat × TlvParse) TlvParse → Prop
  | atEnd : ¬ tlv < size - 2 → Taken stream size expected tlv parse (.leave parse)
  | exceeding : tlv < size - 2 → ¬ (tlv + 2 + lengthAt stream tlv : Nat) ≤ size →
      Taken stream size expected tlv parse
        (.leave { parse with reads := parse.reads ++ [tlv, tlv + 1], retval := .warning })
  | givesUp : Complete stream size tlv → (handleAt stream expected tlv).cursor? = none →
      Taken stream size expected tlv parse (.leave (parse.take stream expected tlv))
  | moved {cursor : Nat} : Complete stream size tlv →
      (handleAt stream expected tlv).cursor? = some cursor →
      Taken stream size expected tlv parse (.next (cursor, parse.take stream expected tlv))

theorem taken_parseTurn (tlv : Nat) (parse : TlvParse) :
    Taken stream size expected tlv parse (parseTurn stream size expected (tlv, parse)) := by
  by_cases header : tlv < size - 2
  · by_cases value : (tlv + 2 + lengthAt stream tlv : Nat) ≤ size
    · cases moved : (handleAt stream expected tlv).cursor? with
      | none =>
        simp only [parseTurn, if_pos header, if_neg (Int.not_lt.mpr value), moved]
        exact .givesUp ⟨header, value⟩ moved
      | some cursor =>
        simp only [parseTurn, if_pos header, if_neg (Int.not_lt.mpr value), moved]
        exact .moved ⟨header, value⟩ moved
    · simp only [parseTurn, if_pos header, if_pos (Int.not_le.mp value)]
      exact .exceeding header value
  · simp only [parseTurn, if_neg header]
    exact .atEnd header

theorem givesUp_iff :
    (handleAt stream expected tlv).cursor? = none ↔ GivesUp stream expected tlv := by
  rw [handleAt, handle]
  by_cases isExpected : (typeAt stream tlv).isExpected expected = true
  · rw [if_pos isExpected]
    cases isType : typeAt stream tlv <;> rw [isType] at isExpected
    case authInfo =>
      rw [handleExpected, recordAuthInfo]
      split
      next isEmpty => exact iff_of_true rfl ⟨isType, isExpected, isEmpty⟩
      next notEmpty => exact iff_of_false (some_ne_none _) fun givesUp => notEmpty givesUp.2.2
    all_goals
      apply iff_of_false (some_ne_none _)
      intro givesUp
      cases isType.symm.trans givesUp.1
  · rw [if_neg isExpected]
    apply iff_of_false (some_ne_none _)
    intro givesUp
    exact isExpected (givesUp.1 ▸ givesUp.2.1)

/-- The logs of one parse are in those of another. -/
structure Logged (parse result : TlvParse) : Prop where
  reads : parse.reads ⊆ result.reads
  moves : parse.moves ⊆ result.moves
  entries : parse.tlvs.entries ⊆ result.tlvs.entries

theorem Logged.refl (parse : TlvParse) : Logged parse parse :=
  ⟨List.Subset.refl _, List.Subset.refl _, List.Subset.refl _⟩

theorem Logged.trans {first second third : TlvParse} (before : Logged first second)
    (after : Logged second third) : Logged first third :=
  ⟨List.Subset.trans before.reads after.reads, List.Subset.trans before.moves after.moves,
    List.Subset.trans before.entries after.entries⟩

theorem logged_take (parse : TlvParse) (tlv : Nat) :
    Logged parse (parse.take stream expected tlv) where
  reads := List.Subset.trans (subset_append_left _ _) (subset_append_left _ _)
  moves := subset_append_left _ _
  entries := subset_append_left _ _

theorem logged_run (tlv : Nat) (parse : TlvParse) :
    Logged parse ((parseLoop stream size expected).run (tlv, parse)) := by
  have preserved : ∀ {state following : Nat × TlvParse}, Logged parse state.2 →
      (parseLoop stream size expected).turn state = .next following →
      Logged parse following.2 := by
    rintro ⟨tlv, later⟩ following logged turned
    have taken : Taken stream size expected tlv later (.next following) :=
      turned ▸ taken_parseTurn tlv later
    cases taken with
    | moved _ _ => exact logged.trans (logged_take later tlv)
  have left : ∀ {state : Nat × TlvParse} {result : TlvParse}, Logged parse state.2 →
      (parseLoop stream size expected).turn state = .leave result → Logged parse result := by
    rintro ⟨tlv, later⟩ result logged turned
    have taken : Taken stream size expected tlv later (.leave result) :=
      turned ▸ taken_parseTurn tlv later
    cases taken with
    | atEnd _ => exact logged
    | exceeding _ _ =>
      exact ⟨List.Subset.trans logged.reads (subset_append_left _ _), logged.moves, logged.entries⟩
    | givesUp _ _ => exact logged.trans (logged_take later tlv)
  exact (parseLoop stream size expected).run_invariant preserved left (Logged.refl parse)

variable {cursor : Nat}

theorem mem_take_moves (moved : (handleAt stream expected tlv).cursor? = some cursor) :
    (tlv, cursor) ∈ (parse.take stream expected tlv).moves := by
  apply mem_append_right
  rw [moved]
  exact mem_singleton_self _

theorem entries_of_givesUp (givesUp : GivesUp stream expected tlv) :
    (handleAt stream expected tlv).entries = [] := by
  simp [handleAt, handle, givesUp.1, givesUp.2.1, handleExpected, recordAuthInfo, givesUp.2.2]

/-! ## Packets whose TLVs are filled -/

theorem linked_take (moved : (handleAt stream expected tlv).cursor? = some cursor)
    (linked : Linked parse.moves tlv) : Linked (parse.take stream expected tlv).moves cursor := by
  have extended : (parse.take stream expected tlv).moves = parse.moves ++ [(tlv, cursor)] := by
    change parse.moves ++ _ = _
    rw [moved]
    rfl
  rw [extended]
  exact linked.move cursor

theorem Contained.take (contained : Contained stream size parse) (linked : Linked parse.moves tlv)
    (complete : Complete stream size tlv)
    (stays : Stays stream size tlv (handleAt stream expected tlv)) :
    Contained stream size (parse.take stream expected tlv) := by
  rcases complete with ⟨header, value⟩
  refine ⟨?_, ?_, ?_, ?_⟩
  · apply forall_mem_append.mpr ⟨forall_mem_append.mpr ⟨contained.reads, _⟩, stays.reads⟩
    intro offset inHeader
    simp only [mem_cons, not_mem_nil, or_false] at inHeader
    omega
  · cases moved : (handleAt stream expected tlv).cursor? with
    | none =>
      refine ⟨tlv, ?_⟩
      change Linked (parse.moves ++ _) tlv
      rw [moved]
      simpa using linked
    | some cursor => exact ⟨cursor, linked_take moved linked⟩
  · apply forall_mem_append.mpr ⟨contained.moves, _⟩
    intro move own
    rw [mem_toList] at own
    rcases map_eq_some_iff.mp own with ⟨cursor, moved, rfl⟩
    exact stays.cursor cursor moved
  · intro entry isEntry
    rcases mem_append.mp isEntry with earlier | own
    · rcases contained.entries entry earlier with ⟨move, isMove, inside⟩
      exact ⟨move, (logged_take parse tlv).moves isMove, inside⟩
    · cases moved : (handleAt stream expected tlv).cursor? with
      | none =>
        rw [entries_of_givesUp (givesUp_iff.mp moved)] at own
        cases own
      | some cursor => exact ⟨(tlv, cursor), mem_take_moves moved, stays.entries entry own, value⟩

theorem contained_empty : Contained stream size .empty where
  reads := nofun
  linked := ⟨0, .start⟩
  moves := nofun
  entries := nofun

theorem contained_of_fits (fits : ∀ tlv, Declared stream size expected tlv →
      Complete stream size tlv → Fits stream size expected tlv) :
    Contained stream size (parseTlvs stream size expected) := by
  have preserved : ∀ {state following : Nat × TlvParse},
      Declared stream size expected state.1 ∧ Linked state.2.moves state.1 ∧
        Contained stream size state.2 →
      (parseLoop stream size expected).turn state = .next following →
      Declared stream size expected following.1 ∧ Linked following.2.moves following.1 ∧
        Contained stream size following.2 := by
    rintro ⟨tlv, parse⟩ following ⟨declared, linked, contained⟩ turned
    have taken : Taken stream size expected tlv parse (.next following) :=
      turned ▸ taken_parseTurn tlv parse
    cases taken with
    | @moved cursor complete moved =>
      have stays := (stays_handleAt_iff complete).mpr (fits tlv declared complete)
      have goesOn : ¬ GivesUp stream expected tlv := by
        rw [← givesUp_iff, moved]
        exact some_ne_none cursor
      refine ⟨?_, linked_take moved linked, contained.take linked complete stays⟩
      rw [stays.cursor cursor moved]
      exact declared.next complete goesOn
  have left : ∀ {state : Nat × TlvParse} {result : TlvParse},
      Declared stream size expected state.1 ∧ Linked state.2.moves state.1 ∧
        Contained stream size state.2 →
      (parseLoop stream size expected).turn state = .leave result →
      Contained stream size result := by
    rintro ⟨tlv, parse⟩ result ⟨declared, linked, contained⟩ turned
    have taken : Taken stream size expected tlv parse (.leave result) :=
      turned ▸ taken_parseTurn tlv parse
    cases taken with
    | atEnd _ => exact contained
    | exceeding header _ =>
      refine ⟨?_, contained.linked, contained.moves, contained.entries⟩
      intro offset isRead
      rcases mem_append.mp isRead with earlier | inHeader
      · exact contained.reads offset earlier
      · simp only [mem_cons, not_mem_nil, or_false] at inHeader
        omega
    | givesUp complete _ =>
      exact contained.take linked complete
        ((stays_handleAt_iff complete).mpr (fits tlv declared complete))
  exact (parseLoop stream size expected).run_invariant preserved left
    ⟨.first, .start, contained_empty⟩

/-! ## Packets with a TLV that is not filled -/

theorem Linked.apart {moves : List (Nat × Nat)} (linked : Linked moves cursor)
    (forward : ∀ move ∈ moves, move.1 ≤ move.2) :
    (∀ move ∈ moves, move.2 ≤ cursor) ∧ ∀ first ∈ moves, ∀ second ∈ moves,
      first = second ∨ first.2 ≤ second.1 ∨ second.2 ≤ first.1 := by
  induction linked with
  | start => exact ⟨nofun, nofun⟩
  | @move moves tlv cursor linked induction =>
    rw [forall_mem_append] at forward
    rcases induction forward.1 with ⟨below, apart⟩
    have last : tlv ≤ cursor := forward.2 (tlv, cursor) mem_cons_self
    refine ⟨?_, ?_⟩
    · intro move isMove
      rcases mem_append.mp isMove with earlier | own
      · exact le_trans (below move earlier) last
      · apply le_of_eq
        rw [mem_singleton.mp own]
    · intro first isFirst second isSecond
      rcases mem_append.mp isFirst with firstEarlier | firstLast
      · rcases mem_append.mp isSecond with secondEarlier | secondLast
        · exact apart first firstEarlier second secondEarlier
        · rw [mem_singleton.mp secondLast]
          exact .inr (.inl (below first firstEarlier))
      · rw [mem_singleton.mp firstLast]
        rcases mem_append.mp isSecond with secondEarlier | secondLast
        · exact .inr (.inr (below second secondEarlier))
        · rw [mem_singleton.mp secondLast]
          exact .inl rfl

theorem Contained.inside (contained : Contained stream size parse)
    (isMove : (tlv, cursor) ∈ parse.moves) (isEntry : entry ∈ parse.tlvs.entries)
    (behind : tlv + 2 ≤ entry.start) (before : entry.start < tlv + 2 + lengthAt stream tlv)
    (forward : entry.start ≤ entry.stop) : Inside stream tlv entry := by
  rcases contained.linked with ⟨final, linked⟩
  have moves : ∀ move ∈ parse.moves, move.1 ≤ move.2 := by
    intro move isMove
    rw [contained.moves move isMove]
    omega
  rcases contained.entries entry isEntry with ⟨move, otherMove, inside, _⟩
  have exact := contained.moves _ isMove
  have otherExact := contained.moves move otherMove
  have apart := (linked.apart moves).2 _ isMove move otherMove
  dsimp only at exact apart
  rcases apart with same | after | earlier
  · rw [← same] at inside
    exact inside
  · have starts := inside.2.1
    omega
  · have stops := inside.2.2
    omega

theorem recordEntries_starts {type : TlvType} {limit position : Nat}
    (isEntry : entry ∈ (recordEntries stream type layout limit position).entries) :
    position ≤ entry.start ∧ entry.start < limit ∧ entry.start ≤ entry.stop := by
  rcases mem_map.mp isEntry with ⟨bounds, isBounds, rfl⟩
  rcases strides_entry isBounds with ⟨behind, before, _, size, _, ends⟩
  dsimp only
  omega

theorem handleAt_starts (isEntry : entry ∈ (handleAt stream expected tlv).entries)
    (exact : (handleAt stream expected tlv).cursor? = some (tlv + 2 + lengthAt stream tlv)) :
    tlv + 2 ≤ entry.start ∧ entry.start < tlv + 2 + lengthAt stream tlv ∧
      entry.start ≤ entry.stop := by
  rw [handleAt, handle] at isEntry exact
  split at isEntry
  next isExpected =>
    rw [if_pos isExpected] at exact
    cases isType : typeAt stream tlv <;> rw [isType] at isEntry exact
    case isNeighbours =>
      rcases recordEntries_starts isEntry with ⟨behind, before, forward⟩
      exact ⟨le_of_succ_le behind, before, forward⟩
    case esNeighbours =>
      rw [mem_singleton.mp isEntry]
      have ends := Option.some.inj exact
      have behind : tlv + 2 + 4 ≤ tlv + 2 + lengthAt stream tlv := ends ▸ le_strides_cursor
      refine ⟨le_refl _, ?_, ?_⟩
      · change tlv + 2 < _
        omega
      · exact le_trans (le_add_right _ 4) le_strides_cursor
    case authInfo =>
      rw [handleExpected, recordAuthInfo] at isEntry
      split at isEntry <;> cases isEntry
    case checksum | protocolsSupported | dynamicHostname | teRouterId => cases isEntry
    case way3Hello | gracefulRestart | padding | unsupported => cases isEntry
    all_goals exact recordEntries_starts isEntry
  next => cases isEntry

theorem logged_run_take (complete : Complete stream size tlv) :
    Logged (parse.take stream expected tlv)
      ((parseLoop stream size expected).run (tlv, parse)) := by
  have taken : Taken stream size expected tlv parse
      ((parseLoop stream size expected).turn (tlv, parse)) := taken_parseTurn tlv parse
  generalize turned : (parseLoop stream size expected).turn (tlv, parse) = turn at taken
  cases taken with
  | atEnd atEnd => exact absurd complete.1 atEnd
  | exceeding _ exceeds => exact absurd complete.2 exceeds
  | givesUp _ _ =>
    rw [(parseLoop stream size expected).run_of_leave turned]
    exact .refl _
  | moved _ _ =>
    rw [(parseLoop stream size expected).run_of_next turned]
    exact logged_run _ _

section

variable (contained : Contained stream size (parseTlvs stream size expected))
  (declared : Declared stream size expected tlv)
include contained declared

theorem exists_run_of_declared :
    ∃ parse, parseTlvs stream size expected =
      (parseLoop stream size expected).run (tlv, parse) := by
  induction declared with
  | first => exact ⟨.empty, rfl⟩
  | @next tlv declared complete goesOn induction =>
    rcases induction with ⟨parse, same⟩
    have taken : Taken stream size expected tlv parse
        ((parseLoop stream size expected).turn (tlv, parse)) := taken_parseTurn tlv parse
    generalize turned : (parseLoop stream size expected).turn (tlv, parse) = turn at taken
    cases taken with
    | atEnd atEnd => exact absurd complete.1 atEnd
    | exceeding _ exceeds => exact absurd complete.2 exceeds
    | givesUp _ moved => exact absurd (givesUp_iff.mp moved) goesOn
    | @moved cursor _ moved =>
      have logged : Logged (parse.take stream expected tlv)
          (parseTlvs stream size expected) := same ▸ logged_run_take complete
      have exact := contained.moves _ (logged.moves (mem_take_moves moved))
      refine ⟨parse.take stream expected tlv, ?_⟩
      rw [same, (parseLoop stream size expected).run_of_next turned]
      dsimp only at exact
      rw [exact]

theorem fits_of_contained (complete : Complete stream size tlv) :
    Fits stream size expected tlv := by
  rcases exists_run_of_declared contained declared with ⟨parse, same⟩
  have logged : Logged (parse.take stream expected tlv) (parseTlvs stream size expected) :=
    same ▸ logged_run_take complete
  have exact : ∀ cursor, (handleAt stream expected tlv).cursor? = some cursor →
      cursor = tlv + 2 + lengthAt stream tlv := by
    intro cursor moved
    exact contained.moves _ (logged.moves (mem_take_moves moved))
  rw [← stays_handleAt_iff complete]
  refine ⟨?_, exact, ?_⟩
  · intro offset isRead
    exact contained.reads offset (logged.reads (mem_append_right _ isRead))
  · intro entry isEntry
    cases moved : (handleAt stream expected tlv).cursor? with
    | none =>
      rw [entries_of_givesUp (givesUp_iff.mp moved)] at isEntry
      cases isEntry
    | some cursor =>
      rcases handleAt_starts isEntry (exact cursor moved ▸ moved) with
        ⟨behind, before, forward⟩
      exact contained.inside (logged.moves (mem_take_moves moved))
        (logged.entries (mem_append_right _ isEntry)) behind before forward

end

end

/-- The parser stays inside the packet and inside the TLVs exactly if the entries of every TLV it
is asked for fill the TLV. -/
theorem parseTlvs_contained_iff (stream : Nat → UInt8) (size : Int) (expected : Nat) :
    Contained stream size (parseTlvs stream size expected) ↔
      ∀ tlv, Declared stream size expected tlv → Complete stream size tlv →
        Fits stream size expected tlv :=
  ⟨fun contained _ => fits_of_contained contained, contained_of_fits⟩

def shortTeIsNeighbours (offset : Nat) : UInt8 := [22, 1].getD offset 0

/-- The parser looks for the length of the sub-TLVs ten octets further on, outside the packet of
four octets. -/
theorem shortTeIsNeighbours_escapes :
    12 ∈ (parseTlvs shortTeIsNeighbours 4 (2 ^ 16)).reads ∧
      (parseTlvs shortTeIsNeighbours 4 (2 ^ 16)).tlvs.entries = [⟨.teIsNeighbours, 2, 13⟩] ∧
      ¬ Contained shortTeIsNeighbours 4 (parseTlvs shortTeIsNeighbours 4 (2 ^ 16)) := by
  have isRead : 12 ∈ (parseTlvs shortTeIsNeighbours 4 (2 ^ 16)).reads := by
    decide +kernel
  refine ⟨isRead, by decide +kernel, ?_⟩
  intro contained
  have inside := contained.reads 12 isRead
  omega

end Quagga.Isis
