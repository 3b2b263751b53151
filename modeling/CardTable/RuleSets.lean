import CardTable.Ts.RuleSetCodec

/-!
# RuleSets — what comes back, and from which bytes

The encoder and the decoder of rule sets meet in the pieces of
`Ts.RuleSetCodec`. The decoder reads a signed multiplier as unsigned,
keeps no text that is not faithful or too long, and takes counts in any
form, keys in any order and any number of bytes behind the rule set. So
a rule set comes back from its bytes under a condition on the
multipliers and the default actions, and bytes are those of the rule set
they decode to under a condition on how they are written.
-/

namespace CardTable.RuleSets

open Basis Basis.Unicode Ts

/-! ## Bytes apart -/

theorem length_uint (v : JsNumber) (k : Nat) : (uint v k).length = k := length_putUintLE _ _

theorem length_int32 (v : JsNumber) : (int32 v).length = 4 := length_putUintLE _ _

namespace RuleSet

variable (rs : RuleSet)

theorem length_head : rs.head.length = 40 := by
  simp [head, length_uint]

theorem length_middle : rs.middle.length = 34 := by
  simp [middle, length_uint]

theorem length_last : rs.last.length = 19 := by
  simp [last, length_uint, flag]

/-- Equal in every field; the default actions as a map. -/
def Same (rs rs' : RuleSet) : Prop :=
  rs.defaultActionByState.Same rs'.defaultActionByState ∧
    { rs with defaultActionByState := rs'.defaultActionByState } = rs'

instance (rs rs' : RuleSet) : Decidable (rs.Same rs') := inferInstanceAs (Decidable (_ ∧ _))

end RuleSet

/-- Texts the decoder keeps. -/
def Fits (s : JsString) : Prop := Faithful s ∧ (textEncode s).length ≤ maxReservedTrailing

instance (s : JsString) : Decidable (Fits s) := inferInstanceAs (Decidable (_ ∧ _))

theorem Fits.writable {s : JsString} (h : Fits s) : Writable s := Nat.le_trans h.2 (by decide)

/-- A text of the encoder is read as what rereading makes of it. -/
theorem reads_ofString_iff {s s' : JsString} (hw : Writable s) :
    (RawText.ofString s).Reads s' ↔ (textEncode s).length ≤ maxReservedTrailing ∧ s' = reread s := by
  constructor
  · intro h
    have hdecode := h.decodes
    rw [RawText.ofString, textDecode_textEncode] at hdecode
    exact ⟨h.capped, (Option.some.inj hdecode).symm⟩
  · rintro ⟨hcap, rfl⟩
    exact ⟨RawText.sized_ofString hw, hcap, textDecode_textEncode s⟩

/-! ## Records that come back -/

/-- What rereading makes of an entry. -/
def rereadEntry (e : JsString × JsString) : JsString × JsString := (reread e.1, reread e.2)

def entryWeight (e : JsString × JsString) : Nat := weight e.1 + weight e.2

theorem weight_reread_le (s : JsString) : weight (reread s) ≤ weight s := by
  by_cases h : reread s = s
  · rw [h]
  · exact (weight_reread_lt h).le

/-- An entry that does not come back gets lighter. -/
theorem entryWeight_rereadEntry_lt {e : JsString × JsString} (h : rereadEntry e ≠ e) :
    entryWeight (rereadEntry e) < entryWeight e := by
  have hkey := weight_reread_le e.1
  have hvalue := weight_reread_le e.2
  show weight (reread e.1) + weight (reread e.2) < weight e.1 + weight e.2
  by_cases h1 : reread e.1 = e.1
  · have h2 : reread e.2 ≠ e.2 := fun h2 => h (Prod.ext h1 h2)
    have hlt := weight_reread_lt h2
    omega
  · have hlt := weight_reread_lt h1
    omega

/-- Pairs read off the encoder's texts. -/
theorem forall₂_reads_ofEntry {es : List (JsString × JsString)}
    (hw : ∀ e ∈ es, Writable e.1 ∧ Writable e.2) {pairs : List (JsString × JsString)} :
    List.Forall₂ (fun t e => t.1.Reads e.1 ∧ t.2.Reads e.2) (es.map RawMap.ofEntry) pairs ↔
      (∀ e ∈ es, (textEncode e.1).length ≤ maxReservedTrailing ∧
        (textEncode e.2).length ≤ maxReservedTrailing) ∧ pairs = es.map rereadEntry := by
  induction es generalizing pairs with
  | nil => simp
  | cons e es ih =>
      obtain ⟨⟨hkey, hvalue⟩, hrest⟩ := List.forall_mem_cons.mp hw
      rw [List.map_cons, List.forall_mem_cons, List.map_cons]
      constructor
      · intro h
        cases h with
        | cons hfirst hmore =>
            obtain ⟨hcapKey, hk⟩ := (reads_ofString_iff hkey).mp hfirst.1
            obtain ⟨hcapValue, hv⟩ := (reads_ofString_iff hvalue).mp hfirst.2
            obtain ⟨hcaps, rfl⟩ := (ih hrest).mp hmore
            exact ⟨⟨⟨hcapKey, hcapValue⟩, hcaps⟩, by rw [rereadEntry, ← hk, ← hv]⟩
      · rintro ⟨⟨⟨hcapKey, hcapValue⟩, hcaps⟩, rfl⟩
        exact .cons ⟨(reads_ofString_iff hkey).mpr ⟨hcapKey, rfl⟩,
          (reads_ofString_iff hvalue).mpr ⟨hcapValue, rfl⟩⟩ ((ih hrest).mpr ⟨hcaps, rfl⟩)

/-- Pairs that fill a record of their own number. -/
theorem fills_of_length {pairs : List (JsString × JsString)} {r : Record JsString JsString}
    (hr : r = Record.empty.assignAll protoKey pairs) (hlen : r.entries.length = pairs.length) :
    r.entries = pairs ∧ ∀ e ∈ pairs, e.1 ≠ protoKey := by
  subst hr
  have hall : (Record.empty.assignAll protoKey pairs).entries.length =
      (Record.empty : Record JsString JsString).entries.length + pairs.length :=
    hlen.trans (Nat.zero_add _).symm
  exact Record.assignAll_of_length hall

/-- Every default action is a text that comes back, under a key that can
be assigned to. -/
def KeepsEntries (r : Record JsString JsString) : Prop :=
  ∀ e ∈ r.entries, e.1 ≠ protoKey ∧ Fits e.1 ∧ Fits e.2

instance (r : Record JsString JsString) : Decidable (KeepsEntries r) :=
  inferInstanceAs (Decidable (∀ e ∈ r.entries, _))

/-- The encoder's counts are true. -/
theorem sized_ofRecord {r : Record JsString JsString} (hw : WritableMap r) :
    (RawMap.ofRecord r).Sized := by
  have hperm := perm_sortedEntries r
  have hentry : ∀ e ∈ (sortedEntries r).map RawMap.ofEntry, e.1.Sized ∧ e.2.Sized := by
    intro e he
    obtain ⟨p, hp, rfl⟩ := List.mem_map.mp he
    obtain ⟨hkey, hvalue⟩ := hw.entries p (hperm.mem_iff.mp hp)
    exact ⟨RawText.sized_ofString hkey, RawText.sized_ofString hvalue⟩
  refine ⟨?_, fun e he => (hentry e he).1, fun e he => (hentry e he).2⟩
  rw [RawMap.ofRecord, List.length_map, hperm.length_eq]
  exact varintCode_varintBytes (Nat.lt_of_le_of_lt hw.count (by decide))

/-- What comes back is in order, when it is the same map: reading
permutes the entries, and nothing can have moved. -/
theorem keeps_of_builds {r r' : Record JsString JsString} (hw : WritableMap r)
    (hbuilds : (RawMap.ofRecord r).Builds r') (hsame : r'.Same r) :
    r'.entries = sortedEntries r ∧ KeepsEntries r := by
  have hperm := perm_sortedEntries r
  obtain ⟨pairs, hpairs, hr'⟩ := hbuilds.reads
  obtain ⟨hcaps, hreread⟩ :=
    (forall₂_reads_ofEntry fun e he => hw.entries e (hperm.mem_iff.mp he)).mp hpairs
  have hlen : r'.entries.length = pairs.length := by
    rw [hreread, List.length_map, hperm.length_eq, hsame.length_eq]
  obtain ⟨hentries, hne⟩ := fills_of_length hr' hlen
  have hback : ((sortedEntries r).map rereadEntry).Perm (sortedEntries r) := by
    rw [← hreread, ← hentries]
    exact hsame.trans hperm.symm
  have hfixed := fixed_of_perm (fun _ => entryWeight_rereadEntry_lt) hback
  constructor
  · rw [hentries, hreread, List.map_congr_left (g := id) hfixed, List.map_id]
  · intro e he
    have hsorted := hperm.mem_iff.mpr he
    obtain ⟨hcapKey, hcapValue⟩ := hcaps e hsorted
    have hmem : e ∈ pairs := by
      rw [← hentries]
      exact hsame.mem_iff.mpr he
    have heq := hfixed e hsorted
    exact ⟨hne e hmem, ⟨reread_eq_iff.mp (congrArg Prod.fst heq), hcapKey⟩,
      ⟨reread_eq_iff.mp (congrArg Prod.snd heq), hcapValue⟩⟩

/-- **The default actions come back** exactly when each of them does. -/
theorem ofRecord_builds_same_iff {r : Record JsString JsString} (hw : WritableMap r) :
    (∃ r' : Record JsString JsString, (RawMap.ofRecord r).Builds r' ∧ r'.Same r) ↔
      KeepsEntries r := by
  have hperm := perm_sortedEntries r
  have hwritable : ∀ e ∈ sortedEntries r, Writable e.1 ∧ Writable e.2 :=
    fun e he => hw.entries e (hperm.mem_iff.mp he)
  have hcount : ((sortedEntries r).map RawMap.ofEntry).length = r.entries.length := by
    rw [List.length_map, hperm.length_eq]
  constructor
  · rintro ⟨r', hbuilds, hsame⟩
    exact (keeps_of_builds hw hbuilds hsame).2
  · intro hkeeps
    have hsorted : ∀ e ∈ sortedEntries r, e.1 ≠ protoKey ∧ Fits e.1 ∧ Fits e.2 :=
      fun e he => hkeeps e (hperm.mem_iff.mp he)
    have hreread : (sortedEntries r).map rereadEntry = sortedEntries r := by
      have hfixed : ∀ e ∈ sortedEntries r, rereadEntry e = id e := by
        intro e he
        obtain ⟨-, hkey, hvalue⟩ := hsorted e he
        exact Prod.ext (reread_eq hkey.1) (reread_eq hvalue.1)
      rw [List.map_congr_left hfixed, List.map_id]
    have hfilled : (Record.empty.assignAll protoKey (sortedEntries r)).entries = sortedEntries r :=
      Record.entries_assignAll ((hperm.map Prod.fst).nodup_iff.mpr r.nodup)
        fun e he => (hsorted e he).1
    refine ⟨Record.empty.assignAll protoKey (sortedEntries r),
      ⟨(sized_ofRecord hw).count, ?_, sortedEntries r, ?_, rfl⟩, ?_⟩
    · rw [RawMap.ofRecord, hcount]
      exact hw.count
    · exact (forall₂_reads_ofEntry hwritable).mpr
        ⟨fun e he => ⟨(hsorted e he).2.1.2, (hsorted e he).2.2.2⟩, hreread.symm⟩
    · rw [Record.Same, hfilled]
      exact hperm

/-! ## Rule sets that come back -/

theorem decodeRuleSet_eq_ok_iff {b : List UInt8} {rs : RuleSet} :
    decodeRuleSet b = .ok rs ↔
      rs.Readable ∧ ∃ (m : RawMap) (t : List UInt8), m.Builds rs.defaultActionByState ∧
        b = rs.around m ++ t := by
  have hread := recognises_readRuleSet b rs
  rw [decodeRuleSet]
  constructor
  · intro h
    cases hrun : readRuleSet b with
    | ok r =>
        rw [hrun] at h
        cases h
        obtain ⟨_, ⟨hreadable, m, hbuilds, rfl⟩, hb⟩ := (hread r.2).mp hrun
        exact ⟨hreadable, m, r.2, hbuilds, hb⟩
    | err e =>
        rw [hrun] at h
        cases h
    | halt message =>
        rw [hrun] at h
        cases h
  · rintro ⟨hreadable, m, t, hbuilds, hb⟩
    rw [(hread t).mpr ⟨_, ⟨hreadable, m, hbuilds, rfl⟩, hb⟩]

/-- The pieces of a buffer are found again. -/
theorem pieces_inj {h h' mid mid' win win' loss loss' last last' t t' : List UInt8} {m m' : RawMap}
    (hm : m.Sized) (hm' : m'.Sized) (hhead : h.length = h'.length)
    (hmid : mid.length = mid'.length) (hwin : win.length = win'.length)
    (hloss : loss.length = loss'.length) (hlast : last.length = last'.length)
    (heq : h ++ m.bytes ++ mid ++ win ++ loss ++ last ++ t =
      h' ++ m'.bytes ++ mid' ++ win' ++ loss' ++ last' ++ t') :
    h = h' ∧ m = m' ∧ mid = mid' ∧ win = win' ∧ loss = loss' ∧ last = last' ∧ t = t' := by
  simp only [List.append_assoc] at heq
  obtain ⟨hh, heq⟩ := List.append_inj heq hhead
  obtain ⟨hmap, heq⟩ := RawMap.bytes_inj hm hm' heq
  obtain ⟨hmiddle, heq⟩ := List.append_inj heq hmid
  obtain ⟨hw, heq⟩ := List.append_inj heq hwin
  obtain ⟨hl, heq⟩ := List.append_inj heq hloss
  obtain ⟨hlst, heq⟩ := List.append_inj heq hlast
  exact ⟨hh, hmap, hmiddle, hw, hl, hlst, heq⟩

/-- Between zero and the end of the unsigned range both readings agree. -/
theorem int32_eq_uint {v : JsNumber} (h : v.Within 0 0xffffffff) : int32 v = uint v 4 := by
  obtain ⟨-, hlow, hhigh⟩ := h.integer
  rw [int32, uint]
  congr 2
  omega

/-- What the encoder writes and what the decoder takes, piece by piece. -/
theorem code_append_eq {rs rs' : RuleSet} {m : RawMap} {t t' : List UInt8}
    (hw : WritableMap rs.defaultActionByState) (hm : m.Sized)
    (h : rs.code ++ t = rs'.around m ++ t') :
    RawMap.ofRecord rs.defaultActionByState = m ∧ t = t' := by
  obtain ⟨-, hmap, -, -, -, -, htail⟩ := pieces_inj (sized_ofRecord hw) hm
    (rs.length_head.trans rs'.length_head.symm) (rs.length_middle.trans rs'.length_middle.symm)
    ((length_int32 _).trans (length_uint _ 4).symm) ((length_int32 _).trans (length_uint _ 4).symm)
    (rs.length_last.trans rs'.length_last.symm) h
  exact ⟨hmap, htail⟩

/-- No multiplier is negative, and every default action comes back. -/
structure RuleSet.ComesBack (rs : RuleSet) : Prop where
  win : 0 ≤ rs.settlementRules.inBetweenWinMultiplier.value
  loss : 0 ≤ rs.settlementRules.inBetweenLossMultiplier.value
  defaults : KeepsEntries rs.defaultActionByState

/-- **Exactly these rule sets come back** from the bytes the encoder
writes for them. -/
theorem decode_encode_iff {rs : RuleSet} {w : List UInt8} (h : encodeRuleSet rs = .ok w) :
    (∃ rs', decodeRuleSet w = .ok rs' ∧ rs'.Same rs) ↔ rs.ComesBack := by
  obtain ⟨henc, rfl⟩ := encodeRuleSet_eq_ok_iff.mp h
  constructor
  · rintro ⟨rs', hdecode, hsame, hfields⟩
    obtain ⟨hread, m, t, hbuilds, hbytes⟩ := decodeRuleSet_eq_ok_iff.mp hdecode
    obtain ⟨rfl, -⟩ := code_append_eq (t := []) henc.defaults hbuilds.sized
      ((List.append_nil _).trans hbytes)
    have hmultipliers : rs'.settlementRules = rs.settlementRules := by rw [← hfields]
    have hwin := hread.win.integer.2.1
    have hloss := hread.loss.integer.2.1
    rw [hmultipliers] at hwin hloss
    exact ⟨hwin, hloss, (ofRecord_builds_same_iff henc.defaults).mp ⟨_, hbuilds, hsame⟩⟩
  · rintro ⟨hwin, hloss, hkeeps⟩
    obtain ⟨r, hbuilds, hsame⟩ := (ofRecord_builds_same_iff henc.defaults).mpr hkeeps
    have hunsigned : ∀ v : JsNumber, v.Within (-0x80000000) 0x7fffffff → 0 ≤ v.value →
        v.Within 0 0xffffffff := by
      intro v hv hpos
      obtain ⟨hint, -, hhigh⟩ := hv.integer
      rw [hint]
      exact ⟨hpos, by omega⟩
    have hwin' := hunsigned _ henc.win hwin
    have hloss' := hunsigned _ henc.loss hloss
    refine ⟨{ rs with defaultActionByState := r }, decodeRuleSet_eq_ok_iff.mpr
      ⟨⟨⟨henc.playerCountMin, henc.playerCountMax, henc.stakeAmount, henc.minBet, henc.maxBet,
        henc.decisionTimeoutBlocks, henc.recoveryTimeoutBlocks, henc.invitationWindowBlocks,
        henc.nonReveal, henc.badReveal, henc.consecutiveCards, henc.equalCards,
        henc.shuffleAlgorithmVersion, henc.consecutiveCardsPenalty, henc.equalCardsPenalty,
        henc.serialisationVersion⟩, hwin', hloss'⟩, _, [], hbuilds, ?_⟩, hsame, rfl⟩
    rw [RuleSet.code, int32_eq_uint hwin', int32_eq_uint hloss', List.append_nil]
    rfl

/-- `makeRuleSet` of the codec's tests, with a win multiplier. -/
def sampleRuleSet (defaults : Record JsString JsString) (win : Int) : RuleSet where
  gameType := .inBetween
  playerCountMin := .integer 2
  playerCountMax := .integer 4
  stakeAmount := .integer 1000
  minBet := .integer 1
  maxBet := .integer 100
  decisionTimeoutBlocks := .integer 6
  recoveryTimeoutBlocks := .integer 144
  invitationWindowBlocks := .integer 18
  defaultActionByState := defaults
  penaltySchedule := ⟨.integer 100, .integer 200, .integer 0, .integer 0⟩
  deckFormat := .cards52
  shuffleAlgorithmVersion := .integer 1
  settlementRules := ⟨.integer win, .integer 1, .integer 50, .integer 100⟩
  recoveryRules := ⟨true, true, true⟩
  serialisationVersion := .integer 1

theorem framed_sampleRuleSet (defaults : Record JsString JsString) (win : Int) :
    (sampleRuleSet defaults win).Framed := by
  constructor <;> first | exact rfl | exact ⟨by decide, by decide⟩

def passOnSilence : Record JsString JsString :=
  Record.empty.set (units "S8_BET_DECISION".toList) (units "pass".toList)

theorem keeps_passOnSilence : KeepsEntries passOnSilence := by decide +kernel

theorem encodable_sampleRuleSet : (sampleRuleSet passOnSilence 1).Encodable := by
  refine ⟨framed_sampleRuleSet _ _, ⟨by decide, ?_⟩, by decide, by decide⟩
  intro e he
  obtain ⟨-, hkey, hvalue⟩ := keeps_passOnSilence e he
  exact ⟨hkey.writable, hvalue.writable⟩

theorem decode_encode_iff_sample : ∃ rs', decodeRuleSet (sampleRuleSet passOnSilence 1).code =
    .ok rs' ∧ rs'.Same (sampleRuleSet passOnSilence 1) :=
  (decode_encode_iff (encodeRuleSet_eq_ok_iff.mpr ⟨encodable_sampleRuleSet, rfl⟩)).mpr
    ⟨by decide, by decide, keeps_passOnSilence⟩

/-- A win multiplier of −1 comes back as 4294967295. -/
theorem negative_multiplier_changes :
    encodeRuleSet (sampleRuleSet .empty (-1)) = .ok (sampleRuleSet .empty (-1)).code ∧
      decodeRuleSet (sampleRuleSet .empty (-1)).code = .ok (sampleRuleSet .empty 4294967295) ∧
      ¬(sampleRuleSet .empty 4294967295).Same (sampleRuleSet .empty (-1)) := by
  decide +kernel

/-! ## The order of the keys -/

/-- Strictly before, by code units. -/
def KeyLt (a b : JsString) : Prop := a.map UInt16.toNat < b.map UInt16.toNat

instance : DecidableRel KeyLt := fun a b =>
  inferInstanceAs (Decidable (a.map UInt16.toNat < b.map UInt16.toNat))

theorem toNat_map_injective {a b : JsString} (h : a.map UInt16.toNat = b.map UInt16.toNat) : a = b :=
  List.map_injective_iff.mpr (fun _ _ => UInt16.toNat_inj.mp) h

theorem keyLe_antisymm {a b : JsString} (h : KeyLe a b) (h' : KeyLe b a) : a = b :=
  toNat_map_injective (le_antisymm h h')

theorem KeyLt.keyLe {a b : JsString} (h : KeyLt a b) : KeyLe a b := le_of_lt h

theorem KeyLt.ne {a b : JsString} (h : KeyLt a b) : a ≠ b := by
  rintro rfl
  exact lt_irrefl _ h

theorem KeyLe.keyLt {a b : JsString} (h : KeyLe a b) (hne : a ≠ b) : KeyLt a b :=
  lt_of_le_of_ne h fun heq => hne (toNat_map_injective heq)

instance : Std.Total fun a b : JsString × JsString => KeyLe a.1 b.1 :=
  ⟨fun _ _ => le_total _ _⟩

instance : IsTrans (JsString × JsString) fun a b => KeyLe a.1 b.1 :=
  ⟨fun _ _ _ => le_trans⟩

/-- The entries of a record stand in the strict order of their keys. -/
theorem pairwise_sortedEntries (r : Record JsString JsString) :
    (sortedEntries r).Pairwise fun a b => KeyLt a.1 b.1 := by
  have hle : (sortedEntries r).Pairwise fun a b => KeyLe a.1 b.1 :=
    List.pairwise_insertionSort _ _
  have hne : (sortedEntries r).Pairwise fun a b => a.1 ≠ b.1 :=
    List.pairwise_map.mp (((perm_sortedEntries r).map Prod.fst).nodup_iff.mpr r.nodup)
  exact (hle.and hne).imp fun h => h.1.keyLt h.2

/-- **One map, one order**: the entries of the same map are sorted into
the same list. -/
theorem sortedEntries_eq {r r' : Record JsString JsString} (h : r.Same r') :
    sortedEntries r = sortedEntries r' := by
  have hperm : (sortedEntries r).Perm (sortedEntries r') :=
    (perm_sortedEntries r).trans (h.trans (perm_sortedEntries r').symm)
  refine hperm.eq_of_pairwise ?_ (List.pairwise_insertionSort _ _) (List.pairwise_insertionSort _ _)
  intro a b ha hb hab hba
  have ha' := (perm_sortedEntries r).mem_iff.mp ha
  have hb' := (perm_sortedEntries r).mem_iff.mp (hperm.mem_iff.mpr hb)
  exact r.entry_unique ha' hb' (keyLe_antisymm hab hba)

theorem encodeEntries_eq {r r' : Record JsString JsString} (h : r.Same r') (w : CanonicalWriter)
    (keys : List JsString) : encodeEntries r w keys = encodeEntries r' w keys := by
  induction keys generalizing w with
  | nil => rfl
  | cons k rest ih => simp only [encodeEntries, h.get?_eq, ih]

theorem encodeDefaults_eq {r r' : Record JsString JsString} (h : r.Same r') (w : CanonicalWriter) :
    encodeDefaults w r = encodeDefaults w r' := by
  have hkeys : sortKeys r.keys = sortKeys r'.keys := by
    rw [← keys_sortedEntries, ← keys_sortedEntries, sortedEntries_eq h]
  simp only [encodeDefaults, hkeys, encodeEntries_eq h]

/-- **Equal rule sets have one encoding.** -/
theorem encodeRuleSet_eq {rs rs' : RuleSet} (h : rs.Same rs') :
    encodeRuleSet rs = encodeRuleSet rs' := by
  obtain ⟨hsame, hfields⟩ := h
  rw [← hfields]
  simp only [encodeRuleSet, encodeDefaults_eq hsame]

/-- What can be encoded has a hash. -/
theorem ruleSetHash_eq {rs : RuleSet} {w : List UInt8} (h : encodeRuleSet rs = .ok w) :
    ruleSetHash rs = .ok (domainSha256 0x0001 w) := by
  rw [ruleSetHash, h, Outcome.ok_bind, asRuleSetHash, domainSha256,
    if_pos (isHex64_encode (Sha256.length_sha256 _))]

/-! ## Canonical maps -/

/-- A length in its shortest form, and no mark at the front. -/
def PlainText (t : RawText) : Prop :=
  t.size = Tx.varintBytes t.data.length ∧ t.data.take 3 ≠ markBytes

instance (t : RawText) : Decidable (PlainText t) := inferInstanceAs (Decidable (_ ∧ _))

/-- A text the decoder reads is plain exactly when it is the encoder's. -/
theorem plainText_iff {t : RawText} {s : JsString} (h : t.Reads s) :
    PlainText t ↔ t = RawText.ofString s := by
  obtain ⟨size, data⟩ := t
  have hmark := textEncode_eq_iff h.decodes
  dsimp only at hmark
  constructor
  · rintro ⟨hsize, hdata⟩
    dsimp only at hsize hdata
    rw [RawText.ofString, hmark.mpr hdata, hsize]
  · intro heq
    obtain ⟨rfl, hdata⟩ := RawText.mk.inj heq
    exact ⟨by rw [hdata], hmark.mp hdata.symm⟩

namespace RawMap

/-- The keys that are read off a map. -/
def keys (m : RawMap) : List JsString := m.entries.map fun e => (textDecode e.1.data).getD []

/-- The shortest counts, no mark at the front of a text, keys in strict
order, and none that cannot be assigned to. -/
structure Canonical (m : RawMap) : Prop where
  count : m.count = Tx.varintBytes m.entries.length
  texts : ∀ e ∈ m.entries, PlainText e.1 ∧ PlainText e.2
  sorted : m.keys.Pairwise KeyLt
  assignable : protoKey ∉ m.keys

variable {ts : List (RawText × RawText)} {pairs : List (JsString × JsString)}

/-- Plain texts are those of the pairs they are read as. -/
theorem plain_iff (h : List.Forall₂ (fun t e => t.1.Reads e.1 ∧ t.2.Reads e.2) ts pairs) :
    (∀ t ∈ ts, PlainText t.1 ∧ PlainText t.2) ↔ ts = pairs.map ofEntry := by
  induction h with
  | nil => simp
  | @cons t e ts pairs hentry _ ih =>
      rw [List.forall_mem_cons, ih, plainText_iff hentry.1, plainText_iff hentry.2, List.map_cons,
        List.cons.injEq, ofEntry, Prod.ext_iff]

theorem keys_eq {m : RawMap}
    (h : List.Forall₂ (fun t e => t.1.Reads e.1 ∧ t.2.Reads e.2) m.entries pairs) :
    m.keys = pairs.map Prod.fst := by
  obtain ⟨count, ts⟩ := m
  rw [keys]
  dsimp only at h ⊢
  induction h with
  | nil => rfl
  | cons hentry _ ih => rw [List.map_cons, List.map_cons, ih, hentry.1.decodes, Option.getD_some]

/-- Pairs with distinct keys that can be assigned to fill a record. -/
theorem entries_of_keys {r : Record JsString JsString}
    (hr : r = Record.empty.assignAll protoKey pairs) (hnodup : (pairs.map Prod.fst).Nodup)
    (hproto : protoKey ∉ pairs.map Prod.fst) : r.entries = pairs := by
  rw [hr]
  refine Record.entries_assignAll hnodup fun e he heq => hproto ?_
  rw [← heq]
  exact List.mem_map_of_mem he

/-- The texts of a map that is read can be written. -/
theorem writable_of_reads (h : List.Forall₂ (fun t e => t.1.Reads e.1 ∧ t.2.Reads e.2) (pairs.map ofEntry)
    pairs) : ∀ e ∈ pairs, Writable e.1 ∧ Writable e.2 := by
  intro e he
  obtain ⟨hkey, hvalue⟩ := List.forall₂_same.mp (List.forall₂_map_left_iff.mp h) e he
  exact ⟨Nat.le_trans hkey.capped (by decide), Nat.le_trans hvalue.capped (by decide)⟩

/-- **A map is the encoder's** exactly when it is canonical. -/
theorem canonical_iff {m : RawMap} {r : Record JsString JsString} (h : m.Builds r) :
    m.Canonical ↔ WritableMap r ∧ ofRecord r = m := by
  obtain ⟨pairs, hpairs, hr⟩ := h.reads
  have hlen : m.entries.length = pairs.length := hpairs.length_eq
  constructor
  · intro hm
    have hts : m.entries = pairs.map ofEntry := (plain_iff hpairs).mp hm.texts
    have hsorted := hm.sorted
    have hproto := hm.assignable
    rw [keys_eq hpairs] at hsorted hproto
    have hentries : r.entries = pairs := entries_of_keys hr (hsorted.imp KeyLt.ne) hproto
    have hfixed : sortedEntries r = pairs := by
      rw [sortedEntries, hentries]
      exact List.Pairwise.insertionSort_eq ((List.pairwise_map.mp hsorted).imp KeyLt.keyLe)
    rw [hts] at hpairs
    refine ⟨⟨?_, ?_⟩, ?_⟩
    · rw [hentries, ← hlen]
      exact h.safe
    · rw [hentries]
      exact writable_of_reads hpairs
    · rw [ofRecord, hfixed, hentries, ← hts, ← hlen, ← hm.count]
  · rintro ⟨hw, rfl⟩
    obtain ⟨hsorted, hkeeps⟩ := keeps_of_builds hw h (Record.Same.refl r)
    have hsize : (ofRecord r).entries.length = r.entries.length := by
      rw [ofRecord, List.length_map, ← hsorted]
    have hentries := (fills_of_length hr (hsize.symm.trans hlen)).1
    have hkeys : (ofRecord r).keys = r.keys := by
      rw [keys_eq hpairs, ← hentries]
      rfl
    refine ⟨?_, ?_, ?_, ?_⟩
    · rw [hsize]
      rfl
    · rw [plain_iff hpairs, ← hentries, ofRecord, ← hsorted]
    · rw [hkeys, Record.keys, hsorted]
      exact List.pairwise_map.mpr (pairwise_sortedEntries r)
    · rw [hkeys]
      intro hmem
      obtain ⟨e, he, heq⟩ := List.mem_map.mp hmem
      exact (hkeeps e he).1 heq

end RawMap

/-! ## Canonical bytes -/

/-- A buffer with a rule set at its front: the pieces of the rule set and
what is behind it. The counts in it are true. -/
structure Layout where
  head : List UInt8
  actions : RawMap
  middle : List UInt8
  win : List UInt8
  loss : List UInt8
  last : List UInt8
  trailing : List UInt8
  head_length : head.length = 40
  sized : actions.Sized
  middle_length : middle.length = 34
  win_length : win.length = 4
  loss_length : loss.length = 4
  last_length : last.length = 19

namespace Layout

def bytes (l : Layout) : List UInt8 :=
  l.head ++ l.actions.bytes ++ l.middle ++ l.win ++ l.loss ++ l.last ++ l.trailing

/-- A canonical map, multipliers without a sign bit, and at most 4096
bytes behind the rule set. -/
structure Canonical (l : Layout) : Prop where
  actions : l.actions.Canonical
  win : uintLE l.win < 0x80000000
  loss : uintLE l.loss < 0x80000000
  trailing : l.trailing.length ≤ maxReservedTrailing

end Layout

/-- A number of the unsigned range whose bytes have no sign bit. -/
theorem uintLE_uint_lt_iff {v : JsNumber} (h : v.Within 0 0xffffffff) :
    uintLE (uint v 4) < 0x80000000 ↔ v.Within (-0x80000000) 0x7fffffff := by
  obtain ⟨n, rfl, hn⟩ := exists_of_within h
  have hlt : n < 256 ^ 4 := Nat.lt_succ_of_le hn
  rw [uint_natCast, uintLE_putUintLE, Nat.mod_eq_of_lt hlt]
  show _ ↔ _ ∧ _
  omega

/-- **From canonical bytes and no others** the rule set's own bytes are
read. -/
theorem encode_decode_iff {l : Layout} {rs : RuleSet} (h : decodeRuleSet l.bytes = .ok rs) :
    l.Canonical ↔ encodeRuleSet rs = .ok rs.code ∧ l.bytes = rs.code ++ l.trailing ∧
      l.trailing.length ≤ maxReservedTrailing := by
  obtain ⟨hread, m, t, hbuilds, hbytes⟩ := decodeRuleSet_eq_ok_iff.mp h
  obtain ⟨hhead, hmap, hmiddle, hwin, hloss, hlast, htail⟩ := pieces_inj l.sized hbuilds.sized
    (l.head_length.trans rs.length_head.symm) (l.middle_length.trans rs.length_middle.symm)
    (l.win_length.trans (length_uint _ 4).symm) (l.loss_length.trans (length_uint _ 4).symm)
    (l.last_length.trans rs.length_last.symm) hbytes
  have hactions := RawMap.canonical_iff hbuilds
  rw [← hmap] at hactions
  constructor
  · rintro ⟨hcanonical, hwinBit, hlossBit, hcap⟩
    obtain ⟨hwritable, hsame⟩ := hactions.mp hcanonical
    rw [hwin] at hwinBit
    rw [hloss] at hlossBit
    have hcode : rs.code = rs.around m := by
      rw [RuleSet.code, hsame, hmap, int32_eq_uint hread.win, int32_eq_uint hread.loss]
      rfl
    have henc : rs.Encodable := ⟨hread.toFramed, hwritable,
      (uintLE_uint_lt_iff hread.win).mp hwinBit, (uintLE_uint_lt_iff hread.loss).mp hlossBit⟩
    exact ⟨encodeRuleSet_eq_ok_iff.mpr ⟨henc, rfl⟩, by rw [hbytes, hcode, htail], hcap⟩
  · rintro ⟨hencode, hsplit, hcap⟩
    obtain ⟨henc, -⟩ := encodeRuleSet_eq_ok_iff.mp hencode
    obtain ⟨hsame, -⟩ := code_append_eq henc.defaults hbuilds.sized (hsplit.symm.trans hbytes)
    refine ⟨hactions.mpr ⟨henc.defaults, hsame.trans hmap.symm⟩, ?_, ?_, hcap⟩
    · rw [hwin]
      exact (uintLE_uint_lt_iff hread.win).mpr henc.win
    · rw [hloss]
      exact (uintLE_uint_lt_iff hread.loss).mpr henc.loss

/-- The encoder's bytes, laid out. -/
def RuleSet.layout (rs : RuleSet) (hw : WritableMap rs.defaultActionByState)
    (trailing : List UInt8) : Layout where
  head := rs.head
  actions := .ofRecord rs.defaultActionByState
  middle := rs.middle
  win := int32 rs.settlementRules.inBetweenWinMultiplier
  loss := int32 rs.settlementRules.inBetweenLossMultiplier
  last := rs.last
  trailing := trailing
  head_length := rs.length_head
  sized := sized_ofRecord hw
  middle_length := rs.length_middle
  win_length := length_int32 _
  loss_length := length_int32 _
  last_length := rs.length_last

theorem RuleSet.bytes_layout (rs : RuleSet) (hw : WritableMap rs.defaultActionByState)
    (trailing : List UInt8) : (rs.layout hw trailing).bytes = rs.code ++ trailing := rfl

/-- **Exactly the canonical bytes are those of the rule set they decode
to**, with at most 4096 bytes behind it; of these, equal rule sets have
one encoding and one hash. -/
theorem canonical_bytes_iff {b : List UInt8} {rs : RuleSet} (h : decodeRuleSet b = .ok rs) :
    ((∃ w t, encodeRuleSet rs = .ok w ∧ b = w ++ t ∧ t.length ≤ maxReservedTrailing) ↔
      ∃ l : Layout, l.bytes = b ∧ l.Canonical) ∧
    ∀ (l l' : Layout) (rs' : RuleSet), l.bytes = b → l.Canonical → l'.Canonical →
      l.trailing = [] → l'.trailing = [] → decodeRuleSet l'.bytes = .ok rs' → rs.Same rs' →
      b = l'.bytes ∧ ∃ hash, ruleSetHash rs = .ok hash ∧ ruleSetHash rs' = .ok hash := by
  constructor
  · constructor
    · rintro ⟨w, t, hencode, rfl, hcap⟩
      obtain ⟨henc, rfl⟩ := encodeRuleSet_eq_ok_iff.mp hencode
      have hbytes := rs.bytes_layout henc.defaults t
      rw [← hbytes] at h
      exact ⟨rs.layout henc.defaults t, hbytes, (encode_decode_iff h).mpr ⟨hencode, hbytes, hcap⟩⟩
    · rintro ⟨l, rfl, hcanonical⟩
      obtain ⟨hencode, hsplit, hcap⟩ := (encode_decode_iff h).mp hcanonical
      exact ⟨_, _, hencode, hsplit, hcap⟩
  · rintro l l' rs' rfl hl hl' htrailing htrailing' hdecode' hsame
    obtain ⟨hencode, hsplit, -⟩ := (encode_decode_iff h).mp hl
    obtain ⟨hencode', hsplit', -⟩ := (encode_decode_iff hdecode').mp hl'
    have heq := encodeRuleSet_eq hsame
    have hcode : rs.code = rs'.code := Outcome.ok.inj (hencode.symm.trans (heq.trans hencode'))
    constructor
    · rw [hsplit, hsplit', htrailing, htrailing', hcode]
    · exact ⟨_, ruleSetHash_eq hencode, (ruleSetHash_eq hencode').trans (by rw [hcode])⟩

theorem decodeRuleSet_sample : decodeRuleSet (sampleRuleSet passOnSilence 1).code =
    .ok (sampleRuleSet passOnSilence 1) := by
  decide +kernel

theorem canonical_passOnSilence : (RawMap.ofRecord passOnSilence).Canonical := by
  refine ⟨?_, ?_, ?_, ?_⟩
  · decide +kernel
  · decide +kernel
  · decide +kernel
  · decide +kernel

theorem canonical_sample :
    ((sampleRuleSet passOnSilence 1).layout encodable_sampleRuleSet.defaults []).Canonical := by
  have hone : uintLE (int32 (.integer 1)) < 0x80000000 := by decide +kernel
  exact ⟨canonical_passOnSilence, hone, hone, Nat.zero_le _⟩

theorem canonical_bytes_iff_sample : ∃ w t,
    encodeRuleSet (sampleRuleSet passOnSilence 1) = .ok w ∧
      (sampleRuleSet passOnSilence 1).code = w ++ t ∧ t.length ≤ maxReservedTrailing := by
  have hbytes := (RuleSet.bytes_layout _ encodable_sampleRuleSet.defaults []).trans
    (List.append_nil _)
  exact (canonical_bytes_iff decodeRuleSet_sample).1.mpr ⟨_, hbytes, canonical_sample⟩

/-- The empty map, its count in three bytes instead of one. -/
def paddedCount : List UInt8 :=
  (sampleRuleSet .empty 1).around ⟨[0xfd, 0, 0], []⟩

/-- These bytes are not those of the rule set they decode to, and the
rule set has others. -/
theorem padded_count_decodes :
    decodeRuleSet paddedCount = .ok (sampleRuleSet .empty 1) ∧
      (¬∃ w t, encodeRuleSet (sampleRuleSet .empty 1) = .ok w ∧ paddedCount = w ++ t ∧
        t.length ≤ maxReservedTrailing) ∧
      decodeRuleSet (sampleRuleSet .empty 1).code = .ok (sampleRuleSet .empty 1) ∧
      paddedCount ≠ (sampleRuleSet .empty 1).code := by
  have hencode : encodeRuleSet (sampleRuleSet .empty 1) = .ok (sampleRuleSet .empty 1).code := by
    decide +kernel
  have hprefix : ¬(sampleRuleSet .empty 1).code <+: paddedCount := by decide +kernel
  refine ⟨by decide +kernel, ?_, by decide +kernel, by decide +kernel⟩
  rintro ⟨w, t, hw, hsplit, -⟩
  obtain rfl := Outcome.ok.inj (hencode.symm.trans hw)
  exact hprefix ⟨t, hsplit.symm⟩

end CardTable.RuleSets
