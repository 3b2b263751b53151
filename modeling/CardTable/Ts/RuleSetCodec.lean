import CardTable.Basis.Record
import CardTable.Ts.CryptoCards
import CardTable.Ts.Serialisation
import Mathlib.Data.List.Lex

/-!
# Ts.RuleSetCodec — rule sets as bytes

`packages/protocol-types/src`: `rule-set.ts` and `rule-set-codec.ts`. A
rule set is written field by field, the default actions with their keys
in the order of their code units. What the encoder writes and what the
decoder accepts are described in the same pieces: the fields before the
default actions, the actions as they stand in the buffer, the fields up
to the two multipliers, and the fields behind them.
-/

namespace CardTable.RuleSets

open Basis Basis.Unicode Ts

/-! ## rule-set.ts -/

inductive GameType where
  | inBetween
  deriving DecidableEq, Repr

/-- `52 | 54`. -/
inductive DeckFormat where
  | cards52
  | cards54
  deriving DecidableEq, Repr

def DeckFormat.number : DeckFormat → Nat
  | cards52 => 52
  | cards54 => 54

structure PenaltySchedule where
  nonReveal : JsNumber
  badReveal : JsNumber
  consecutiveCards : JsNumber
  equalCards : JsNumber
  deriving DecidableEq, Repr

structure SettlementRules where
  inBetweenWinMultiplier : JsNumber
  inBetweenLossMultiplier : JsNumber
  consecutiveCardsPenalty : JsNumber
  equalCardsPenalty : JsNumber
  deriving DecidableEq, Repr

structure RecoveryRules where
  refundStakesToFunders : Bool
  applyNonRevealPenalty : Bool
  applyBadRevealPenalty : Bool
  deriving DecidableEq, Repr

/-- `RuleSet`, with every field. -/
structure RuleSet where
  gameType : GameType
  playerCountMin : JsNumber
  playerCountMax : JsNumber
  stakeAmount : JsNumber
  minBet : JsNumber
  maxBet : JsNumber
  decisionTimeoutBlocks : JsNumber
  recoveryTimeoutBlocks : JsNumber
  invitationWindowBlocks : JsNumber
  defaultActionByState : Record JsString JsString
  penaltySchedule : PenaltySchedule
  deckFormat : DeckFormat
  shuffleAlgorithmVersion : JsNumber
  settlementRules : SettlementRules
  recoveryRules : RecoveryRules
  serialisationVersion : JsNumber
  deriving DecidableEq

/-! ## Default actions -/

/-- The code units of `__proto__`: assigning a text to it does nothing. -/
def protoKey : JsString := [95, 95, 112, 114, 111, 116, 111, 95, 95]

/-- `sort()` compares code units. -/
def KeyLe (a b : JsString) : Prop := a.map UInt16.toNat ≤ b.map UInt16.toNat

instance : DecidableRel KeyLe := fun a b =>
  inferInstanceAs (Decidable (a.map UInt16.toNat ≤ b.map UInt16.toNat))

def sortKeys (keys : List JsString) : List JsString := keys.insertionSort KeyLe

/-- The loop over the sorted keys. -/
def encodeEntries (defaults : Record JsString JsString) (w : CanonicalWriter) :
    List JsString → Js CanonicalWriter
  | [] => .ok w
  | k :: rest => do
      let w ← w.writeUtf8 k
      match defaults.get? k with
      | none =>
          let shown := String.ofList (scalars k)
          .halt s!"encodeDefaults: undefined value for key {shown}"
      | some v => do
          let w ← w.writeUtf8 v
          encodeEntries defaults w rest

def encodeDefaults (w : CanonicalWriter) (defaults : Record JsString JsString) :
    Js CanonicalWriter := do
  let keys := sortKeys defaults.keys
  let w ← w.writeVarint keys.length
  encodeEntries defaults w keys

/-- The loop that fills the record. -/
def decodeEntries (out : Record JsString JsString) : Nat → CanonicalReader (Record JsString JsString)
  | 0 => pure out
  | n + 1 => do
      let k ← CanonicalReader.readUtf8
      let v ← CanonicalReader.readUtf8
      decodeEntries (out.assign protoKey (k, v)) n

def decodeDefaults : CanonicalReader (Record JsString JsString) := do
  let n ← CanonicalReader.readVarint
  decodeEntries Record.empty n

/-! ## The groups of fields -/

def encodePenalty (w : CanonicalWriter) (p : PenaltySchedule) : Js CanonicalWriter := do
  let w ← w.writeU64LE p.nonReveal
  let w ← w.writeU64LE p.badReveal
  let w ← w.writeU64LE p.consecutiveCards
  w.writeU64LE p.equalCards

def decodePenalty : CanonicalReader PenaltySchedule := do
  let nonReveal ← CanonicalReader.readU64LE
  let badReveal ← CanonicalReader.readU64LE
  let consecutiveCards ← CanonicalReader.readU64LE
  let equalCards ← CanonicalReader.readU64LE
  pure ⟨.integer nonReveal, .integer badReveal, .integer consecutiveCards, .integer equalCards⟩

def encodeSettlement (w : CanonicalWriter) (s : SettlementRules) : Js CanonicalWriter := do
  let w ← w.writeI32LE s.inBetweenWinMultiplier
  let w ← w.writeI32LE s.inBetweenLossMultiplier
  let w ← w.writeU64LE s.consecutiveCardsPenalty
  w.writeU64LE s.equalCardsPenalty

/-- The multipliers are read as unsigned. -/
def decodeSettlement : CanonicalReader SettlementRules := do
  let win ← CanonicalReader.readU32LE
  let loss ← CanonicalReader.readU32LE
  let consecutiveCardsPenalty ← CanonicalReader.readU64LE
  let equalCardsPenalty ← CanonicalReader.readU64LE
  pure ⟨.integer win, .integer loss, .integer consecutiveCardsPenalty, .integer equalCardsPenalty⟩

def encodeRecovery (w : CanonicalWriter) (r : RecoveryRules) : Js CanonicalWriter := do
  let w ← w.writeBool r.refundStakesToFunders
  let w ← w.writeBool r.applyNonRevealPenalty
  w.writeBool r.applyBadRevealPenalty

def decodeRecovery : CanonicalReader RecoveryRules := do
  let refundStakesToFunders ← CanonicalReader.readBool
  let applyNonRevealPenalty ← CanonicalReader.readBool
  let applyBadRevealPenalty ← CanonicalReader.readBool
  pure ⟨refundStakesToFunders, applyNonRevealPenalty, applyBadRevealPenalty⟩

/-! ## Rule sets -/

/-- `GAME_TYPE_CODES`. -/
def gameTypeCode : GameType → Nat
  | .inBetween => 0x01

/-- `GAME_TYPE_FROM_CODE`. -/
def gameTypeFromCode : Nat → Option GameType
  | 0x01 => some .inBetween
  | _ => none

def encodeRuleSet (rs : RuleSet) : Js (List UInt8) := do
  if rs.serialisationVersion ≠ .integer 1 then
    .halt "encodeRuleSet: only serialisation_version 1 is implemented"
  else do
    let w ← CanonicalWriter.new.writeU8 (.integer 1)
    let w ← w.writeU8 (.integer (gameTypeCode rs.gameType))
    if ¬rs.playerCountMin.Within 0 255 then .halt "player_count_min out of range"
    else if ¬rs.playerCountMax.Within 0 255 then .halt "player_count_max out of range"
    else do
      let w ← w.writeU8 rs.playerCountMin
      let w ← w.writeU8 rs.playerCountMax
      let w ← w.writeU64LE rs.stakeAmount
      let w ← w.writeU64LE rs.minBet
      let w ← w.writeU64LE rs.maxBet
      let w ← w.writeU32LE rs.decisionTimeoutBlocks
      let w ← w.writeU32LE rs.recoveryTimeoutBlocks
      let w ← w.writeU32LE rs.invitationWindowBlocks
      let w ← encodeDefaults w rs.defaultActionByState
      let w ← encodePenalty w rs.penaltySchedule
      let w ← w.writeU8 (.integer rs.deckFormat.number)
      if ¬rs.shuffleAlgorithmVersion.Within 0 255 then
        .halt "shuffle_algorithm_version out of u8 range"
      else do
        let w ← w.writeU8 rs.shuffleAlgorithmVersion
        let w ← encodeSettlement w rs.settlementRules
        let w ← encodeRecovery w rs.recoveryRules
        pure w.bytes

/-- `return err(protocolError(code, context))`. -/
def reject {α : Type} (code : CodecErrorCode) (context : String) : CanonicalReader α := fun _ =>
  .err ⟨code, context⟩

/-- The body of `decodeRuleSet` inside its `try`. -/
def readRuleSet : CanonicalReader RuleSet := do
  let version ← CanonicalReader.readU8
  if version ≠ 1 then reject .unsupportedVersion s!"RuleSet version {version}"
  else do
    let code ← CanonicalReader.readU8
    match gameTypeFromCode code with
    | none =>
        let digits := String.ofList (Nat.toDigits 16 code)
        reject .invalidRuleSet s!"unknown game_type code 0x{digits}"
    | some gameType => do
        let playerCountMin ← CanonicalReader.readU8
        let playerCountMax ← CanonicalReader.readU8
        let stakeAmount ← CanonicalReader.readU64LE
        let minBet ← CanonicalReader.readU64LE
        let maxBet ← CanonicalReader.readU64LE
        let decisionTimeoutBlocks ← CanonicalReader.readU32LE
        let recoveryTimeoutBlocks ← CanonicalReader.readU32LE
        let invitationWindowBlocks ← CanonicalReader.readU32LE
        let defaultActionByState ← decodeDefaults
        let penaltySchedule ← decodePenalty
        let deckFormat ← CanonicalReader.readU8
        if deckFormat ≠ 52 ∧ deckFormat ≠ 54 then
          reject .invalidRuleSet "deck_format must be 52 or 54"
        else do
          let shuffleAlgorithmVersion ← CanonicalReader.readU8
          let settlementRules ← decodeSettlement
          let recoveryRules ← decodeRecovery
          pure {
            gameType := gameType
            playerCountMin := .integer playerCountMin
            playerCountMax := .integer playerCountMax
            stakeAmount := .integer stakeAmount
            minBet := .integer minBet
            maxBet := .integer maxBet
            decisionTimeoutBlocks := .integer decisionTimeoutBlocks
            recoveryTimeoutBlocks := .integer recoveryTimeoutBlocks
            invitationWindowBlocks := .integer invitationWindowBlocks
            defaultActionByState := defaultActionByState
            penaltySchedule := penaltySchedule
            deckFormat := if deckFormat = 52 then .cards52 else .cards54
            shuffleAlgorithmVersion := .integer shuffleAlgorithmVersion
            settlementRules := settlementRules
            recoveryRules := recoveryRules
            serialisationVersion := .integer 1 }

/-- What the reader throws becomes a `SERIALISATION_ERROR`; what is left
of the buffer is not looked at. -/
def decodeRuleSet (bytes : List UInt8) : Except CodecError RuleSet :=
  match readRuleSet bytes with
  | .ok (rs, _) => .ok rs
  | .err e => .error e
  | .halt message => .error ⟨.serialisationError, message⟩

/-! ## The rule-set hash -/

/-- `domainSha256`: the two bytes of the tag stand before the payload. -/
def domainSha256 (tag : Nat) (payload : List UInt8) : String :=
  Hex.encode (Sha256.sha256 (putUintLE tag 2 ++ payload))

def asRuleSetHash (hex : String) : Js String :=
  if isHex64 hex then .ok hex else .halt "asRuleSetHash: expected 64 lowercase hex chars"

def ruleSetHash (rs : RuleSet) : Js String := do
  let payload ← encodeRuleSet rs
  asRuleSetHash (domainSha256 0x0001 payload)

/-! ## Default actions in a buffer -/

/-- The entries, sorted by their keys. -/
def sortedEntries (r : Record JsString JsString) : List (JsString × JsString) :=
  r.entries.insertionSort fun a b => KeyLe a.1 b.1

theorem perm_sortedEntries (r : Record JsString JsString) : (sortedEntries r).Perm r.entries :=
  List.perm_insertionSort _ _

theorem keys_sortedEntries (r : Record JsString JsString) :
    (sortedEntries r).map Prod.fst = sortKeys r.keys :=
  List.map_insertionSort _ _ _ _ fun _ _ _ _ => Iff.rfl

/-- A map as it stands in a buffer: the bytes of the count, then keys and
values in turn. -/
structure RawMap where
  count : List UInt8
  entries : List (RawText × RawText)
  deriving DecidableEq, Repr

namespace RawMap

def entryBytes (e : RawText × RawText) : List UInt8 := e.1.bytes ++ e.2.bytes

def bytes (m : RawMap) : List UInt8 := m.count ++ m.entries.flatMap entryBytes

/-- The counts are the counts. -/
structure Sized (m : RawMap) : Prop where
  count : VarintCode m.entries.length m.count
  keys : ∀ e ∈ m.entries, e.1.Sized
  values : ∀ e ∈ m.entries, e.2.Sized

/-- What the encoder makes of an entry. -/
def ofEntry (e : JsString × JsString) : RawText × RawText :=
  (RawText.ofString e.1, RawText.ofString e.2)

/-- What the encoder makes of a record. -/
def ofRecord (r : Record JsString JsString) : RawMap :=
  ⟨Tx.varintBytes r.entries.length, (sortedEntries r).map ofEntry⟩

theorem entries_inj {xs ys : List (RawText × RawText)} {r s : List UInt8}
    (hx : ∀ e ∈ xs, e.1.Sized ∧ e.2.Sized) (hy : ∀ e ∈ ys, e.1.Sized ∧ e.2.Sized)
    (hlen : xs.length = ys.length)
    (h : xs.flatMap entryBytes ++ r = ys.flatMap entryBytes ++ s) : xs = ys ∧ r = s := by
  induction xs generalizing ys with
  | nil =>
      obtain rfl := List.length_eq_zero_iff.mp hlen.symm
      exact ⟨rfl, h⟩
  | cons x xs ih =>
      cases ys with
      | nil => cases hlen
      | cons y ys =>
          obtain ⟨⟨hkey, hvalue⟩, hx⟩ := List.forall_mem_cons.mp hx
          obtain ⟨⟨hkey', hvalue'⟩, hy⟩ := List.forall_mem_cons.mp hy
          simp only [List.flatMap_cons, entryBytes, List.append_assoc] at h
          obtain ⟨hfst, h⟩ := RawText.bytes_inj hkey hkey' h
          obtain ⟨hsnd, h⟩ := RawText.bytes_inj hvalue hvalue' h
          obtain ⟨rfl, hrest⟩ := ih hx hy (Nat.succ.inj hlen) h
          exact ⟨by rw [Prod.ext hfst hsnd], hrest⟩

/-- A map says where it ends. -/
theorem bytes_inj {m m' : RawMap} {r s : List UInt8} (hm : m.Sized) (hm' : m'.Sized)
    (h : m.bytes ++ r = m'.bytes ++ s) : m = m' ∧ r = s := by
  obtain ⟨count, entries⟩ := m
  obtain ⟨count', entries'⟩ := m'
  simp only [bytes, List.append_assoc] at h
  obtain ⟨rfl, hlen, h⟩ := varintCode_inj hm.count hm'.count h
  obtain ⟨rfl, hrest⟩ := entries_inj (fun e he => ⟨hm.keys e he, hm.values e he⟩)
    (fun e he => ⟨hm'.keys e he, hm'.values e he⟩) hlen h
  exact ⟨rfl, hrest⟩

/-- The reader fills the record from it. -/
structure Builds (m : RawMap) (r : Record JsString JsString) : Prop where
  count : VarintCode m.entries.length m.count
  safe : m.entries.length ≤ maxSafeInteger
  reads : ∃ pairs : List (JsString × JsString),
    List.Forall₂ (fun t e => t.1.Reads e.1 ∧ t.2.Reads e.2) m.entries pairs ∧
      r = Record.empty.assignAll protoKey pairs

theorem Builds.sized {m : RawMap} {r : Record JsString JsString} (h : m.Builds r) : m.Sized := by
  obtain ⟨pairs, hpairs, -⟩ := h.reads
  have hentry : ∀ e ∈ m.entries, e.1.Sized ∧ e.2.Sized := by
    intro e he
    obtain ⟨p, hkey, hvalue⟩ := Codec.exists_of_mem_forall₂ hpairs he
    exact ⟨hkey.sized, hvalue.sized⟩
  exact ⟨h.count, fun e he => (hentry e he).1, fun e he => (hentry e he).2⟩

end RawMap

/-! ## What the encoder writes -/

/-- A length the writer takes. -/
def Writable (s : JsString) : Prop := (textEncode s).length ≤ maxSafeInteger

/-- The writer takes the count and every text. -/
structure WritableMap (r : Record JsString JsString) : Prop where
  count : r.entries.length ≤ maxSafeInteger
  entries : ∀ e ∈ r.entries, Writable e.1 ∧ Writable e.2

theorem encodeEntries_bind {α : Type} {r : Record JsString JsString} {f : CanonicalWriter → Js α}
    {a : α} {es : List (JsString × JsString)} {w : CanonicalWriter} (h : ∀ e ∈ es, e ∈ r.entries) :
    (encodeEntries r w (es.map Prod.fst) >>= f) = .ok a ↔
      (∀ e ∈ es, Writable e.1 ∧ Writable e.2) ∧
        f (w.writeRaw ((es.map RawMap.ofEntry).flatMap RawMap.entryBytes)) = .ok a := by
  induction es generalizing w with
  | nil => simp [encodeEntries, CanonicalWriter.writeRaw]
  | cons e es ih =>
      obtain ⟨hentry, hrest⟩ := List.forall_mem_cons.mp h
      have hget : r.get? e.1 = some e.2 := Record.get?_eq_some_iff.mpr hentry
      rw [List.map_cons, encodeEntries, bind_assoc, CanonicalWriter.writeUtf8_bind, hget]
      simp only [bind_assoc, CanonicalWriter.writeUtf8_bind, ih hrest, List.forall_mem_cons,
        CanonicalWriter.writeRaw_writeRaw, List.map_cons, List.flatMap_cons, RawMap.entryBytes,
        RawMap.ofEntry, RawText.ofString, RawText.bytes, List.append_assoc, Writable, and_assoc]

/-- **The default actions are written as their sorted map.** -/
@[simp] theorem encodeDefaults_bind {α : Type} {r : Record JsString JsString}
    {f : CanonicalWriter → Js α} {a : α} {w : CanonicalWriter} :
    (encodeDefaults w r >>= f) = .ok a ↔
      WritableMap r ∧ f (w.writeRaw (RawMap.ofRecord r).bytes) = .ok a := by
  have hperm := perm_sortedEntries r
  have hlen : (sortKeys r.keys).length = r.entries.length := by
    rw [← keys_sortedEntries, List.length_map, hperm.length_eq]
  rw [encodeDefaults, hlen]
  by_cases hcount : r.entries.length ≤ maxSafeInteger
  · simp only [CanonicalWriter.writeVarint_eq hcount, Outcome.ok_bind]
    rw [← keys_sortedEntries, encodeEntries_bind fun e he => hperm.mem_iff.mp he,
      CanonicalWriter.writeRaw_writeRaw]
    refine and_congr_left fun _ => ?_
    constructor
    · intro h
      exact ⟨hcount, fun e he => h e (hperm.mem_iff.mpr he)⟩
    · intro h e he
      exact h.entries e (hperm.mem_iff.mp he)
  · have hhalt : w.writeVarint r.entries.length = .halt _ := if_pos (Nat.not_le.mp hcount)
    simp only [hhalt, Outcome.halt_bind]
    exact iff_of_false nofun fun h => hcount h.1.count

/-! ## The fields in a buffer -/

namespace RuleSet

/-- The bytes before the default actions. -/
def head (rs : RuleSet) : List UInt8 :=
  uint (.integer 1) 1 ++ uint (.integer (gameTypeCode rs.gameType)) 1 ++ uint rs.playerCountMin 1 ++
    uint rs.playerCountMax 1 ++ uint rs.stakeAmount 8 ++ uint rs.minBet 8 ++ uint rs.maxBet 8 ++
    uint rs.decisionTimeoutBlocks 4 ++ uint rs.recoveryTimeoutBlocks 4 ++
    uint rs.invitationWindowBlocks 4

/-- The bytes between the default actions and the multipliers. -/
def middle (rs : RuleSet) : List UInt8 :=
  uint rs.penaltySchedule.nonReveal 8 ++ uint rs.penaltySchedule.badReveal 8 ++
    uint rs.penaltySchedule.consecutiveCards 8 ++ uint rs.penaltySchedule.equalCards 8 ++
    uint (.integer rs.deckFormat.number) 1 ++ uint rs.shuffleAlgorithmVersion 1

def flag (b : Bool) : List UInt8 := [if b then 1 else 0]

/-- The bytes behind the multipliers. -/
def last (rs : RuleSet) : List UInt8 :=
  uint rs.settlementRules.consecutiveCardsPenalty 8 ++ uint rs.settlementRules.equalCardsPenalty 8 ++
    flag rs.recoveryRules.refundStakesToFunders ++ flag rs.recoveryRules.applyNonRevealPenalty ++
    flag rs.recoveryRules.applyBadRevealPenalty

/-- Every number but the multipliers is in the range of its bytes. -/
structure Framed (rs : RuleSet) : Prop where
  playerCountMin : rs.playerCountMin.Within 0 0xff
  playerCountMax : rs.playerCountMax.Within 0 0xff
  stakeAmount : rs.stakeAmount.Within 0 maxSafeInteger
  minBet : rs.minBet.Within 0 maxSafeInteger
  maxBet : rs.maxBet.Within 0 maxSafeInteger
  decisionTimeoutBlocks : rs.decisionTimeoutBlocks.Within 0 0xffffffff
  recoveryTimeoutBlocks : rs.recoveryTimeoutBlocks.Within 0 0xffffffff
  invitationWindowBlocks : rs.invitationWindowBlocks.Within 0 0xffffffff
  nonReveal : rs.penaltySchedule.nonReveal.Within 0 maxSafeInteger
  badReveal : rs.penaltySchedule.badReveal.Within 0 maxSafeInteger
  consecutiveCards : rs.penaltySchedule.consecutiveCards.Within 0 maxSafeInteger
  equalCards : rs.penaltySchedule.equalCards.Within 0 maxSafeInteger
  shuffleAlgorithmVersion : rs.shuffleAlgorithmVersion.Within 0 0xff
  consecutiveCardsPenalty : rs.settlementRules.consecutiveCardsPenalty.Within 0 maxSafeInteger
  equalCardsPenalty : rs.settlementRules.equalCardsPenalty.Within 0 maxSafeInteger
  serialisationVersion : rs.serialisationVersion = .integer 1

/-- The multipliers, as the writer takes them. -/
structure Encodable (rs : RuleSet) : Prop extends Framed rs where
  defaults : WritableMap rs.defaultActionByState
  win : rs.settlementRules.inBetweenWinMultiplier.Within (-0x80000000) 0x7fffffff
  loss : rs.settlementRules.inBetweenLossMultiplier.Within (-0x80000000) 0x7fffffff

/-- The bytes of a rule set. -/
def code (rs : RuleSet) : List UInt8 :=
  rs.head ++ (RawMap.ofRecord rs.defaultActionByState).bytes ++ rs.middle ++
    int32 rs.settlementRules.inBetweenWinMultiplier ++
    int32 rs.settlementRules.inBetweenLossMultiplier ++ rs.last

end RuleSet

theorem gameTypeCode_within (g : GameType) :
    (JsNumber.integer (gameTypeCode g)).Within 0 0xff := by
  cases g
  decide

theorem deckFormat_within (d : DeckFormat) : (JsNumber.integer d.number).Within 0 0xff := by
  cases d with
  | cards52 => decide
  | cards54 => decide

/-- A range check that throws. -/
theorem orHalt_eq_ok {α : Type} {p : Prop} [Decidable p] {message : String} {x : Js α} {a : α} :
    (if ¬p then .halt message else x) = .ok a ↔ p ∧ x = .ok a := by
  by_cases hp : p
  · simp [hp]
  · simp [hp]

/-- **What `encodeRuleSet` accepts and writes.** -/
theorem encodeRuleSet_eq_ok_iff {rs : RuleSet} {w : List UInt8} :
    encodeRuleSet rs = .ok w ↔ rs.Encodable ∧ w = rs.code := by
  have hone : (JsNumber.integer 1).Within 0 0xff := by decide
  have hgame := gameTypeCode_within rs.gameType
  have hdeck := deckFormat_within rs.deckFormat
  rw [encodeRuleSet]
  split
  · rename_i hversion
    exact iff_of_false nofun fun h => hversion h.1.serialisationVersion
  · rename_i hversion
    rw [not_not] at hversion
    simp only [encodePenalty, encodeSettlement, encodeRecovery, bind_assoc, orHalt_eq_ok,
      CanonicalWriter.writeU8_bind, CanonicalWriter.writeU32LE_bind,
      CanonicalWriter.writeU64LE_bind, CanonicalWriter.writeI32LE_bind,
      CanonicalWriter.writeBool_bind, encodeDefaults_bind, hone, hgame, hdeck, true_and,
      CanonicalWriter.bytes_writeRaw, CanonicalWriter.bytes_new, Outcome.pure_eq, Outcome.ok.injEq,
      RuleSet.code, RuleSet.head, RuleSet.middle, RuleSet.last, RuleSet.flag, List.nil_append,
      List.append_assoc]
    constructor
    · rintro ⟨hmin, hmax, -, -, hstake, hminBet, hmaxBet, hdecision, hrecovery, hinvitation,
        hdefaults, hnonReveal, hbadReveal, hconsecutive, hequal, hshuffle, -, hwin, hloss,
        hconsecutive', hequal', rfl⟩
      exact ⟨⟨⟨hmin, hmax, hstake, hminBet, hmaxBet, hdecision, hrecovery, hinvitation, hnonReveal,
        hbadReveal, hconsecutive, hequal, hshuffle, hconsecutive', hequal', hversion⟩, hdefaults,
        hwin, hloss⟩, rfl⟩
    · rintro ⟨h, rfl⟩
      exact ⟨h.playerCountMin, h.playerCountMax, h.playerCountMin, h.playerCountMax, h.stakeAmount,
        h.minBet, h.maxBet, h.decisionTimeoutBlocks, h.recoveryTimeoutBlocks,
        h.invitationWindowBlocks, h.defaults, h.nonReveal, h.badReveal, h.consecutiveCards,
        h.equalCards, h.shuffleAlgorithmVersion, h.shuffleAlgorithmVersion, h.win, h.loss,
        h.consecutiveCardsPenalty, h.equalCardsPenalty, rfl⟩

/-! ## What the decoder accepts -/

/-- The pairs that stand in a buffer, assigned in turn. -/
theorem recognises_decodeEntries (n : Nat) (out : Record JsString JsString) :
    Recognises (decodeEntries out n) fun r w => ∃ (ts : List (RawText × RawText))
      (pairs : List (JsString × JsString)), ts.length = n ∧
      List.Forall₂ (fun t e => t.1.Reads e.1 ∧ t.2.Reads e.2) ts pairs ∧
      r = out.assignAll protoKey pairs ∧ w = ts.flatMap RawMap.entryBytes := by
  induction n generalizing out with
  | zero =>
      refine (Recognises.pure out).congr fun r w => ?_
      constructor
      · rintro ⟨rfl, rfl⟩
        exact ⟨[], [], rfl, .nil, rfl, rfl⟩
      · rintro ⟨ts, pairs, hlen, hpairs, rfl, rfl⟩
        obtain rfl := List.length_eq_zero_iff.mp hlen
        cases hpairs
        exact ⟨rfl, rfl⟩
  | succ n ih =>
      refine (CanonicalReader.recognises_readUtf8.bind fun k =>
        CanonicalReader.recognises_readUtf8.bind fun v =>
          ih (out.assign protoKey (k, v))).congr fun r w => ?_
      constructor
      · rintro ⟨k, _, _, ⟨t, hkey, rfl⟩, ⟨v, _, _, ⟨t', hvalue, rfl⟩,
          ⟨ts, pairs, rfl, hpairs, rfl, rfl⟩, rfl⟩, rfl⟩
        exact ⟨(t, t') :: ts, (k, v) :: pairs, rfl, .cons ⟨hkey, hvalue⟩ hpairs, rfl,
          (List.append_assoc _ _ _).symm⟩
      · rintro ⟨ts, pairs, hlen, hpairs, rfl, rfl⟩
        cases hpairs with
        | nil => cases hlen
        | @cons t e ts pairs hentry hpairs =>
            exact ⟨e.1, _, _, ⟨t.1, hentry.1, rfl⟩, ⟨e.2, _, _, ⟨t.2, hentry.2, rfl⟩,
              ⟨ts, pairs, Nat.succ.inj hlen, hpairs, rfl, rfl⟩, rfl⟩, List.append_assoc _ _ _⟩

theorem recognises_decodeDefaults :
    Recognises decodeDefaults fun r w => ∃ m : RawMap, m.Builds r ∧ w = m.bytes := by
  refine (CanonicalReader.recognises_readVarint.bind fun n =>
    recognises_decodeEntries n Record.empty).congr fun r w => ?_
  constructor
  · rintro ⟨n, count, _, ⟨hcount, hsafe⟩, ⟨ts, pairs, rfl, hpairs, rfl, rfl⟩, rfl⟩
    exact ⟨⟨count, ts⟩, ⟨hcount, hsafe, pairs, hpairs, rfl⟩, rfl⟩
  · rintro ⟨⟨count, ts⟩, ⟨hcount, hsafe, pairs, hpairs, rfl⟩, rfl⟩
    exact ⟨ts.length, count, _, ⟨hcount, hsafe⟩, ⟨ts, pairs, rfl, hpairs, rfl, rfl⟩, rfl⟩

/-- An integer that a reader returned, as a number. -/
theorem within_natCast {n high : Nat} (h : n ≤ high) :
    (JsNumber.integer n).Within 0 high := ⟨Int.natCast_nonneg n, Int.ofNat_le.mpr h⟩

/-- A number in a range from zero up. -/
theorem exists_of_within {v : JsNumber} {high : Nat} (h : v.Within 0 high) :
    ∃ n : Nat, v = .integer n ∧ n ≤ high := by
  obtain ⟨hv, hlow, hhigh⟩ := h.integer
  refine ⟨v.value.toNat, ?_, by omega⟩
  rwa [Int.toNat_of_nonneg hlow]

theorem uint_natCast (n k : Nat) : uint (.integer n) k = putUintLE n k := rfl

theorem uint_one (k : Nat) : uint (.integer 1) k = putUintLE 1 k := rfl

/-- Four numbers in a row. -/
theorem recognises_four {α : Type} {d₁ d₂ d₃ d₄ : CanonicalReader Nat} {h₁ h₂ h₃ h₄ k₁ k₂ k₃ k₄ : Nat}
    (hd₁ : Recognises d₁ fun n w => n ≤ h₁ ∧ w = putUintLE n k₁)
    (hd₂ : Recognises d₂ fun n w => n ≤ h₂ ∧ w = putUintLE n k₂)
    (hd₃ : Recognises d₃ fun n w => n ≤ h₃ ∧ w = putUintLE n k₃)
    (hd₄ : Recognises d₄ fun n w => n ≤ h₄ ∧ w = putUintLE n k₄)
    {mk : JsNumber → JsNumber → JsNumber → JsNumber → α} :
    Recognises (do
      let a ← d₁
      let b ← d₂
      let c ← d₃
      let d ← d₄
      pure (mk (.integer a) (.integer b) (.integer c) (.integer d)) : CanonicalReader α)
    fun x w => ∃ a b c d, (a.Within 0 h₁ ∧ b.Within 0 h₂ ∧ c.Within 0 h₃ ∧ d.Within 0 h₄) ∧
      x = mk a b c d ∧ w = uint a k₁ ++ uint b k₂ ++ uint c k₃ ++ uint d k₄ := by
  refine (hd₁.bind_code fun a => hd₂.bind_code fun b => hd₃.bind_code fun c => hd₄.bind_code fun d =>
    Recognises.pure _).congr fun x w => ?_
  constructor
  · rintro ⟨a, _, ⟨ha, b, _, ⟨hb, c, _, ⟨hc, d, _, ⟨hd, rfl, rfl⟩, rfl⟩, rfl⟩, rfl⟩, rfl⟩
    refine ⟨_, _, _, _, ⟨within_natCast ha, within_natCast hb, within_natCast hc,
      within_natCast hd⟩, rfl, ?_⟩
    simp [uint_natCast]
  · rintro ⟨a, b, c, d, ⟨ha, hb, hc, hd⟩, rfl, rfl⟩
    obtain ⟨a, rfl, ha'⟩ := exists_of_within ha
    obtain ⟨b, rfl, hb'⟩ := exists_of_within hb
    obtain ⟨c, rfl, hc'⟩ := exists_of_within hc
    obtain ⟨d, rfl, hd'⟩ := exists_of_within hd
    refine ⟨a, _, ⟨ha', b, _, ⟨hb', c, _, ⟨hc', d, _, ⟨hd', rfl, rfl⟩, rfl⟩, rfl⟩, rfl⟩, ?_⟩
    simp [uint_natCast]

/-- Every penalty is an amount. -/
structure PenaltySchedule.Framed (p : PenaltySchedule) : Prop where
  nonReveal : p.nonReveal.Within 0 maxSafeInteger
  badReveal : p.badReveal.Within 0 maxSafeInteger
  consecutiveCards : p.consecutiveCards.Within 0 maxSafeInteger
  equalCards : p.equalCards.Within 0 maxSafeInteger

def PenaltySchedule.code (p : PenaltySchedule) : List UInt8 :=
  uint p.nonReveal 8 ++ uint p.badReveal 8 ++ uint p.consecutiveCards 8 ++ uint p.equalCards 8

theorem recognises_decodePenalty :
    Recognises decodePenalty fun p w => p.Framed ∧ w = p.code := by
  have hread := CanonicalReader.recognises_readU64LE
  refine (recognises_four hread hread hread hread).congr fun p w => ?_
  constructor
  · rintro ⟨a, b, c, d, ⟨ha, hb, hc, hd⟩, rfl, rfl⟩
    exact ⟨⟨ha, hb, hc, hd⟩, rfl⟩
  · rintro ⟨h, rfl⟩
    exact ⟨_, _, _, _, ⟨h.nonReveal, h.badReveal, h.consecutiveCards, h.equalCards⟩, rfl, rfl⟩

/-- Multipliers of the unsigned range, and amounts. -/
structure SettlementRules.Readable (s : SettlementRules) : Prop where
  win : s.inBetweenWinMultiplier.Within 0 0xffffffff
  loss : s.inBetweenLossMultiplier.Within 0 0xffffffff
  consecutiveCardsPenalty : s.consecutiveCardsPenalty.Within 0 maxSafeInteger
  equalCardsPenalty : s.equalCardsPenalty.Within 0 maxSafeInteger

def SettlementRules.code (s : SettlementRules) : List UInt8 :=
  uint s.inBetweenWinMultiplier 4 ++ uint s.inBetweenLossMultiplier 4 ++
    uint s.consecutiveCardsPenalty 8 ++ uint s.equalCardsPenalty 8

/-- **The multipliers are read as unsigned.** -/
theorem recognises_decodeSettlement :
    Recognises decodeSettlement fun s w => s.Readable ∧ w = s.code := by
  have hword := CanonicalReader.recognises_le 0xffffffff (k := 4) rfl
  have hread := CanonicalReader.recognises_readU64LE
  refine (recognises_four hword hword hread hread).congr fun s w => ?_
  constructor
  · rintro ⟨a, b, c, d, ⟨ha, hb, hc, hd⟩, rfl, rfl⟩
    exact ⟨⟨ha, hb, hc, hd⟩, rfl⟩
  · rintro ⟨h, rfl⟩
    exact ⟨_, _, _, _, ⟨h.win, h.loss, h.consecutiveCardsPenalty, h.equalCardsPenalty⟩, rfl, rfl⟩

def RecoveryRules.code (r : RecoveryRules) : List UInt8 :=
  RuleSet.flag r.refundStakesToFunders ++ RuleSet.flag r.applyNonRevealPenalty ++
    RuleSet.flag r.applyBadRevealPenalty

theorem recognises_decodeRecovery : Recognises decodeRecovery fun r w => w = r.code := by
  have hread := CanonicalReader.recognises_readBool
  refine (hread.bind fun a => hread.bind fun b => hread.bind fun c =>
    Recognises.pure _).congr fun r w => ?_
  constructor
  · rintro ⟨a, _, _, rfl, ⟨b, _, _, rfl, ⟨c, _, _, rfl, ⟨rfl, rfl⟩, rfl⟩, rfl⟩, rfl⟩
    rfl
  · rintro rfl
    exact ⟨_, _, _, rfl, ⟨_, _, _, rfl, ⟨_, _, _, rfl, ⟨rfl, rfl⟩, rfl⟩, rfl⟩, rfl⟩

/-- The multipliers, as the reader returns them. -/
structure RuleSet.Readable (rs : RuleSet) : Prop extends RuleSet.Framed rs where
  win : rs.settlementRules.inBetweenWinMultiplier.Within 0 0xffffffff
  loss : rs.settlementRules.inBetweenLossMultiplier.Within 0 0xffffffff

/-- The bytes of a rule set around a map: the code of the decoder. -/
def RuleSet.around (rs : RuleSet) (m : RawMap) : List UInt8 :=
  rs.head ++ m.bytes ++ rs.middle ++ uint rs.settlementRules.inBetweenWinMultiplier 4 ++
    uint rs.settlementRules.inBetweenLossMultiplier 4 ++ rs.last

theorem reject_ne_ok {α : Type} (code : CodecErrorCode) (context : String) (xs : List UInt8)
    (r : α × List UInt8) : (reject code context : CanonicalReader α) xs ≠ .ok r := nofun

theorem gameTypeFromCode_eq_some_iff {code : Nat} {g : GameType} :
    gameTypeFromCode code = some g ↔ code = gameTypeCode g := by
  cases g
  unfold gameTypeFromCode
  split
  · simp [gameTypeCode]
  · rename_i hne
    exact iff_of_false nofun hne

/-- A code of the table goes on with its game type. -/
theorem recognises_gameType {α : Type} {code : Nat} {other : CanonicalReader α}
    (hother : ∀ xs r, other xs ≠ .ok r) {k : GameType → CanonicalReader α}
    {E : GameType → α → List UInt8 → Prop} (hk : ∀ g, Recognises (k g) (E g)) :
    Recognises (match gameTypeFromCode code with
      | none => other
      | some g => k g) fun a w => ∃ g, code = gameTypeCode g ∧ E g a w := by
  intro xs a rest
  cases hcode : gameTypeFromCode code with
  | none =>
      refine iff_of_false (hother _ _) ?_
      rintro ⟨w, ⟨g, hg, -⟩, -⟩
      rw [gameTypeFromCode_eq_some_iff.mpr hg] at hcode
      cases hcode
  | some g =>
      have hg := gameTypeFromCode_eq_some_iff.mp hcode
      constructor
      · intro h
        obtain ⟨w, hw, rfl⟩ := (hk g xs a rest).mp h
        exact ⟨w, ⟨g, hg, hw⟩, rfl⟩
      · rintro ⟨w, ⟨g', -, hw⟩, rfl⟩
        cases g
        cases g'
        exact (hk _).run hw rest

/-- The two deck formats, by their numbers. -/
theorem deckFormat_number {n : Nat} (h : ¬(n ≠ 52 ∧ n ≠ 54)) :
    (if n = 52 then DeckFormat.cards52 else .cards54).number = n := by
  by_cases h52 : n = 52
  · rw [if_pos h52, h52]
    rfl
  · rw [if_neg h52]
    show 54 = n
    omega

theorem deckFormat_of_number (d : DeckFormat) :
    (if d.number = 52 then DeckFormat.cards52 else .cards54) = d := by
  cases d with
  | cards52 => rfl
  | cards54 => rfl

theorem number_isDeck (d : DeckFormat) : ¬(d.number ≠ 52 ∧ d.number ≠ 54) := by
  cases d with
  | cards52 => decide
  | cards54 => decide

/-- The eight numbers before the default actions. -/
theorem recognises_front
    {k : Nat → Nat → Nat → Nat → Nat → Nat → Nat → Nat → CanonicalReader RuleSet}
    {E : Nat → Nat → Nat → Nat → Nat → Nat → Nat → Nat → RuleSet → List UInt8 → Prop}
    (hk : ∀ min max stake minBet maxBet decision recovery invitation,
      Recognises (k min max stake minBet maxBet decision recovery invitation)
        (E min max stake minBet maxBet decision recovery invitation)) :
    Recognises (do
      let min ← CanonicalReader.readU8
      let max ← CanonicalReader.readU8
      let stake ← CanonicalReader.readU64LE
      let minBet ← CanonicalReader.readU64LE
      let maxBet ← CanonicalReader.readU64LE
      let decision ← CanonicalReader.readU32LE
      let recovery ← CanonicalReader.readU32LE
      let invitation ← CanonicalReader.readU32LE
      k min max stake minBet maxBet decision recovery invitation)
    fun rs w => ∃ min max stake minBet maxBet decision recovery invitation v,
      (min ≤ 0xff ∧ max ≤ 0xff ∧ stake ≤ maxSafeInteger ∧ minBet ≤ maxSafeInteger ∧
        maxBet ≤ maxSafeInteger ∧ decision ≤ 0xffffffff ∧ recovery ≤ 0xffffffff ∧
        invitation ≤ 0xffffffff) ∧
      E min max stake minBet maxBet decision recovery invitation rs v ∧
      w = putUintLE min 1 ++ (putUintLE max 1 ++ (putUintLE stake 8 ++ (putUintLE minBet 8 ++
        (putUintLE maxBet 8 ++ (putUintLE decision 4 ++ (putUintLE recovery 4 ++
          (putUintLE invitation 4 ++ v))))))) := by
  have hbyte := CanonicalReader.recognises_le 0xff (k := 1) rfl
  have hword := CanonicalReader.recognises_le 0xffffffff (k := 4) rfl
  have hread := CanonicalReader.recognises_readU64LE
  refine (hbyte.bind_code fun min => hbyte.bind_code fun max => hread.bind_code fun stake =>
    hread.bind_code fun minBet => hread.bind_code fun maxBet => hword.bind_code fun decision =>
    hword.bind_code fun recovery => hword.bind_code fun invitation =>
    hk min max stake minBet maxBet decision recovery invitation).congr fun rs w => ?_
  constructor
  · rintro ⟨min, _, ⟨hmin, max, _, ⟨hmax, stake, _, ⟨hstake, minBet, _, ⟨hminBet, maxBet, _,
      ⟨hmaxBet, decision, _, ⟨hdecision, recovery, _, ⟨hrecovery, invitation, v,
      ⟨hinvitation, hrest⟩, rfl⟩, rfl⟩, rfl⟩, rfl⟩, rfl⟩, rfl⟩, rfl⟩, rfl⟩
    exact ⟨min, max, stake, minBet, maxBet, decision, recovery, invitation, v, ⟨hmin, hmax, hstake,
      hminBet, hmaxBet, hdecision, hrecovery, hinvitation⟩, hrest, rfl⟩
  · rintro ⟨min, max, stake, minBet, maxBet, decision, recovery, invitation, v, ⟨hmin, hmax, hstake,
      hminBet, hmaxBet, hdecision, hrecovery, hinvitation⟩, hrest, rfl⟩
    exact ⟨min, _, ⟨hmin, max, _, ⟨hmax, stake, _, ⟨hstake, minBet, _, ⟨hminBet, maxBet, _,
      ⟨hmaxBet, decision, _, ⟨hdecision, recovery, _, ⟨hrecovery, invitation, v,
      ⟨hinvitation, hrest⟩, rfl⟩, rfl⟩, rfl⟩, rfl⟩, rfl⟩, rfl⟩, rfl⟩, rfl⟩

/-- The fields behind the default actions. -/
theorem recognises_back
    (out : PenaltySchedule → DeckFormat → Nat → SettlementRules → RecoveryRules → RuleSet) :
    Recognises (do
      let penalty ← decodePenalty
      let deck ← CanonicalReader.readU8
      if deck ≠ 52 ∧ deck ≠ 54 then reject .invalidRuleSet "deck_format must be 52 or 54"
      else do
        let shuffle ← CanonicalReader.readU8
        let settlement ← decodeSettlement
        let rules ← decodeRecovery
        pure (out penalty (if deck = 52 then .cards52 else .cards54) shuffle settlement rules) :
          CanonicalReader RuleSet)
    fun rs w => ∃ penalty deck shuffle settlement rules,
      (penalty.Framed ∧ shuffle ≤ 0xff ∧ settlement.Readable) ∧
      rs = out penalty deck shuffle settlement rules ∧
      w = penalty.code ++ (putUintLE deck.number 1 ++ (putUintLE shuffle 1 ++
        (settlement.code ++ rules.code))) := by
  have hbyte := CanonicalReader.recognises_le 0xff (k := 1) rfl
  refine (recognises_decodePenalty.bind_code fun penalty => hbyte.bind_code fun deck =>
    .guard (reject_ne_ok _ _) <| hbyte.bind_code fun shuffle =>
    recognises_decodeSettlement.bind_code fun settlement => recognises_decodeRecovery.bind fun rules =>
    Recognises.pure _).congr fun rs w => ?_
  constructor
  · rintro ⟨penalty, _, ⟨hpenalty, deck, _, ⟨-, hdeck, shuffle, _, ⟨hshuffle, settlement, _,
      ⟨hsettlement, rules, _, _, rfl, ⟨rfl, rfl⟩, rfl⟩, rfl⟩, rfl⟩, rfl⟩, rfl⟩
    refine ⟨penalty, _, shuffle, settlement, rules, ⟨hpenalty, hshuffle, hsettlement⟩, rfl, ?_⟩
    rw [deckFormat_number hdeck, List.append_nil]
  · rintro ⟨penalty, deck, shuffle, settlement, rules, ⟨hpenalty, hshuffle, hsettlement⟩, rfl, rfl⟩
    have hdeck : deck.number ≤ 0xff := by
      cases deck with
      | cards52 => decide
      | cards54 => decide
    refine ⟨penalty, _, ⟨hpenalty, deck.number, _, ⟨hdeck, number_isDeck deck, shuffle, _,
      ⟨hshuffle, settlement, _, ⟨hsettlement, rules, _, [], rfl, ⟨?_, rfl⟩, rfl⟩, rfl⟩, rfl⟩, rfl⟩, ?_⟩
    · rw [deckFormat_of_number]
    · rw [List.append_nil]

/-- **What `decodeRuleSet` accepts.** -/
theorem recognises_readRuleSet : Recognises readRuleSet fun rs w =>
    rs.Readable ∧ ∃ m : RawMap, m.Builds rs.defaultActionByState ∧ w = rs.around m := by
  have hbyte := CanonicalReader.recognises_le 0xff (k := 1) rfl
  refine (hbyte.bind_code fun version => .guard (reject_ne_ok _ _) <| hbyte.bind_code fun code =>
    recognises_gameType (reject_ne_ok _ _) fun game => recognises_front
      fun min max stake minBet maxBet decision recovery invitation =>
    recognises_decodeDefaults.bind fun defaults => recognises_back
      fun penalty deck shuffle settlement rules => ⟨game, .integer min, .integer max, .integer stake,
        .integer minBet, .integer maxBet, .integer decision, .integer recovery, .integer invitation,
        defaults, penalty, deck, .integer shuffle, settlement, rules, .integer 1⟩).congr
    fun rs w => ?_
  constructor
  · rintro ⟨version, _, ⟨-, hversion, code, _, ⟨-, game, hgame, hfront⟩, rfl⟩, rfl⟩
    obtain ⟨min, max, stake, minBet, maxBet, decision, recovery, invitation, v, hranges, hrest, rfl⟩ :=
      hfront
    obtain ⟨defaults, _, _, ⟨m, hbuilds, rfl⟩, hback, rfl⟩ := hrest
    obtain ⟨penalty, deck, shuffle, settlement, rules, ⟨hpenalty, hshuffle, hsettlement⟩, rfl, rfl⟩ :=
      hback
    obtain ⟨hmin, hmax, hstake, hminBet, hmaxBet, hdecision, hrecovery, hinvitation⟩ := hranges
    obtain rfl := not_not.mp hversion
    subst hgame
    refine ⟨⟨⟨within_natCast hmin, within_natCast hmax, within_natCast hstake,
      within_natCast hminBet, within_natCast hmaxBet, within_natCast hdecision,
      within_natCast hrecovery, within_natCast hinvitation, hpenalty.nonReveal, hpenalty.badReveal,
      hpenalty.consecutiveCards, hpenalty.equalCards, within_natCast hshuffle,
      hsettlement.consecutiveCardsPenalty, hsettlement.equalCardsPenalty, rfl⟩, hsettlement.win,
      hsettlement.loss⟩, m, hbuilds, ?_⟩
    simp [RuleSet.around, RuleSet.head, RuleSet.middle, RuleSet.last, uint_natCast, uint_one,
      PenaltySchedule.code, SettlementRules.code, RecoveryRules.code]
  · rintro ⟨h, m, hbuilds, rfl⟩
    obtain ⟨game, min, max, stake, minBet, maxBet, decision, recovery, invitation, defaults, penalty,
      deck, shuffle, settlement, rules, version⟩ := rs
    obtain ⟨min, rfl, hmin⟩ := exists_of_within h.playerCountMin
    obtain ⟨max, rfl, hmax⟩ := exists_of_within h.playerCountMax
    obtain ⟨stake, rfl, hstake⟩ := exists_of_within h.stakeAmount
    obtain ⟨minBet, rfl, hminBet⟩ := exists_of_within h.minBet
    obtain ⟨maxBet, rfl, hmaxBet⟩ := exists_of_within h.maxBet
    obtain ⟨decision, rfl, hdecision⟩ := exists_of_within h.decisionTimeoutBlocks
    obtain ⟨recovery, rfl, hrecovery⟩ := exists_of_within h.recoveryTimeoutBlocks
    obtain ⟨invitation, rfl, hinvitation⟩ := exists_of_within h.invitationWindowBlocks
    obtain ⟨shuffle, rfl, hshuffle⟩ := exists_of_within h.shuffleAlgorithmVersion
    obtain rfl := h.serialisationVersion
    have hcode : gameTypeCode game ≤ 0xff := by
      cases game
      decide
    have hpenalty : penalty.Framed := ⟨h.nonReveal, h.badReveal, h.consecutiveCards, h.equalCards⟩
    have hsettlement : settlement.Readable :=
      ⟨h.win, h.loss, h.consecutiveCardsPenalty, h.equalCardsPenalty⟩
    refine ⟨1, _, ⟨by decide, fun hne => hne rfl, gameTypeCode game, _, ⟨hcode, game, rfl,
      min, max, stake, minBet, maxBet, decision, recovery, invitation, _,
      ⟨hmin, hmax, hstake, hminBet, hmaxBet, hdecision, hrecovery, hinvitation⟩,
      ⟨defaults, _, _, ⟨m, hbuilds, rfl⟩, ⟨penalty, deck, shuffle, settlement, rules,
        ⟨hpenalty, hshuffle, hsettlement⟩, rfl, rfl⟩, rfl⟩, rfl⟩, rfl⟩, ?_⟩
    simp [RuleSet.around, RuleSet.head, RuleSet.middle, RuleSet.last, uint_natCast, uint_one,
      PenaltySchedule.code, SettlementRules.code, RecoveryRules.code]

end CardTable.RuleSets
