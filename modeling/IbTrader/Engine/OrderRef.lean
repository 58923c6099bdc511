/-
  IbTrader.Engine.OrderRef

  The tag of an order (`ib_trader/engine/order_ref.py`) and the filter a bot puts its
  order events through.

  A tag is six fields with a colon between two: a mark, the box, the bot, the symbol, the
  side and the serial.  IB shows the orders of every box to every box, so who owns a fill
  is decided by the first three fields alone, as a prefix of the text.
-/

import IbTrader.Bots.Runtime
import IbTrader.Data.Python
import IbTrader.Lib.Errors

namespace IbTrader.Engine.OrderRef

open Data Lib.Errors
open Bots.Runtime (StrategyConfig tagged)
open OrderLedger (LedgerEvent)

-- ============================================================================
-- The box
-- ============================================================================

/-- `hostname`, of what `socket.gethostname` returns; none where it raises. -/
def hostname (name : Option String) : String :=
  String.ofList (((given name).getD "unknown").toList.map fun c => if c = ':' then '-' else c)

theorem not_mem_hostname (name : Option String) : ':' ∉ (hostname name).toList := by
  rw [hostname, String.toList_ofList, List.mem_map]
  rintro ⟨c, -, hc⟩
  split at hc
  case isTrue => exact absurd hc (by decide)
  case isFalse hne => exact hne hc

-- ============================================================================
-- The codec
-- ============================================================================

/-- `_PREFIX`. -/
def refPrefix : String := "IBT"

/-- `_MAX_LENGTH`. -/
def maxLength : ℕ := 128

structure OrderRefInfo where
  host : String
  botRef : String
  symbol : String
  side : String
  serial : ℤ
  deriving DecidableEq, Repr

/-- `is_local`, on a box of this name. -/
def OrderRefInfo.isLocal (info : OrderRefInfo) (host : String) : Bool := info.host = host

/-- A field of a tag has no separator in it. -/
def checkField (py : Python) (name value : String) : Except String PUnit :=
  if ':' ∈ value.toList then .error (name ++ " must not contain ':': " ++ py.repr value) else .ok ()

/-- The fields of a tag. -/
def fields (host botRef symbol side serial : String) : List String :=
  [refPrefix, host, botRef, symbol, side, serial]

/-- `encode`, on a box of this name; a failure is a ValueError with its text. -/
def encode (py : Python) (host botRef symbol side : String) (serial : ℤ) : Except String String := do
  checkField py "host" host
  checkField py "bot_ref" botRef
  checkField py "symbol" symbol
  if side ∉ ["B", "S"] then throw ("side must be 'B' or 'S', got: " ++ py.repr side)
  else
    match integerText serial with
    | none =>
      throw ("Exceeds the limit (4300 digits) for integer string conversion; " ++
        "use sys.set_int_max_str_digits() to increase the limit")
    | some serial =>
      let ref := ":".intercalate (fields host botRef symbol side serial)
      if maxLength < ref.length then
        throw ("orderRef exceeds " ++ toString maxLength ++ " chars (" ++ toString ref.length ++ "): " ++
          py.repr ref)
      else return ref

/-- `ref.split(":")`. -/
def split (ref : String) : List String := (ref.toList.splitOn ':').map String.ofList

/-- `decode`. -/
def decode (py : Python) (ref : String) : Option OrderRefInfo :=
  if ref = "" ∨ ¬ (refPrefix ++ ":").toList.isPrefixOf ref.toList then none
  else
    match split ref with
    | [_, host, botRef, symbol, side, serial] =>
      if side ∉ ["B", "S"] then none
      else (integer py serial).map fun serial => { host, botRef, symbol, side, serial }
    | _ => none

/-- `_order_ref_prefix` of `run_event_loop`. -/
def orderRefPrefix (host botRef : String) : String := "IBT:" ++ host ++ ":" ++ botRef ++ ":"

-- ============================================================================
-- What is tagged
-- ============================================================================

section Encoding

variable {py : Python} {host botRef symbol side ref : String} {serial : ℤ}

theorem checkField_eq_ok {name value : String} {u : PUnit} :
    checkField py name value = .ok u ↔ ':' ∉ value.toList := by
  unfold checkField
  split
  case isTrue h => simp [h]
  case isFalse h => simp [h]

/-- The name of a box always passes. -/
theorem checkField_hostname (name : Option String) : checkField py "host" (hostname name) = .ok ⟨⟩ :=
  checkField_eq_ok.mpr (not_mem_hostname name)

/-- The fields of a tag are checked, and so is its length. -/
theorem encode_eq_ok_iff :
    encode py host botRef symbol side serial = .ok ref ↔
      ':' ∉ host.toList ∧ ':' ∉ botRef.toList ∧ ':' ∉ symbol.toList ∧ side ∈ ["B", "S"] ∧
        ∃ text, integerText serial = some text ∧
          ref = ":".intercalate (fields host botRef symbol side text) ∧ ref.length ≤ maxLength := by
  unfold encode
  simp only [bind_eq_ok, checkField_eq_ok, exists_const]
  refine and_congr_right fun _ => and_congr_right fun _ => and_congr_right fun _ => ?_
  by_cases hside : side ∈ ["B", "S"]
  · rw [if_neg (not_not.mpr hside), and_iff_right hside]
    cases integerText serial with
    | none => simp [throw_eq_ok]
    | some text =>
      dsimp only
      split
      case isTrue hlong =>
        rw [throw_eq_ok, false_iff]
        rintro ⟨text', htext, href, hshort⟩
        rw [Option.some.injEq] at htext
        rw [href, ← htext] at hshort
        exact absurd hlong (not_lt.mpr hshort)
      case isFalse hshort =>
        rw [pure_eq_ok]
        constructor
        · rintro rfl
          exact ⟨text, rfl, rfl, not_lt.mp hshort⟩
        · rintro ⟨text', htext, href, -⟩
          rw [href, Option.some.inj htext]
  · rw [if_pos hside, throw_eq_ok, false_iff]
    exact fun h => hside h.1

end Encoding

-- ============================================================================
-- Fields between separators
-- ============================================================================

section Fields

variable {α : Type*} {sep : α} {xs ys s t : List α}

/-- Of two texts that start with a field one starts the other only where the fields are
    the same. -/
theorem append_cons_prefix_iff (hx : sep ∉ xs) (hy : sep ∉ ys) :
    xs ++ sep :: s <+: ys ++ sep :: t ↔ xs = ys ∧ s <+: t := by
  induction xs generalizing ys with
  | nil =>
    cases ys with
    | nil => simp
    | cons y ys => simpa using fun heq : sep = y => absurd (heq ▸ List.mem_cons_self) hy
  | cons x xs ih =>
    cases ys with
    | nil => simpa using fun heq : x = sep => absurd (heq ▸ List.mem_cons_self) hx
    | cons y ys =>
      have hxs : sep ∉ xs := fun hin => hx (List.mem_cons_of_mem x hin)
      have hys : sep ∉ ys := fun hin => hy (List.mem_cons_of_mem y hin)
      rw [List.cons_append, List.cons_append, List.cons_prefix_cons, ih hxs hys, List.cons.injEq, and_assoc]

end Fields

/-- A text joined of fields splits into them. -/
theorem split_intercalate {xs : List String} (hne : xs ≠ []) (h : ∀ s ∈ xs, ':' ∉ s.toList) :
    split (":".intercalate xs) = xs := by
  have hfields : ∀ cs ∈ xs.map String.toList, ':' ∉ cs := by
    intro cs hcs
    obtain ⟨s, hs, rfl⟩ := List.mem_map.mp hcs
    exact h s hs
  have hsep : (":" : String).toList = [':'] := rfl
  rw [split, String.toList_intercalate, hsep, List.splitOn_intercalate ':' hfields (by simpa using hne),
    List.map_map]
  exact (List.map_congr_left fun s _ => String.ofList_toList).trans xs.map_id

section Tags

variable {py : Python} {host botRef symbol side text : String} {serial : ℤ}

/-- The characters of a tag, of which the first three fields are written out. -/
theorem toList_tag :
    (":".intercalate (fields host botRef symbol side text)).toList =
      refPrefix.toList ++ ':' :: (host.toList ++ ':' :: (botRef.toList ++ ':' ::
        (":".intercalate [symbol, side, text]).toList)) := by
  simp [fields]

theorem toList_orderRefPrefix :
    (orderRefPrefix host botRef).toList =
      refPrefix.toList ++ ':' :: (host.toList ++ ':' :: (botRef.toList ++ ':' :: [])) := by
  simp [orderRefPrefix, refPrefix]

/-- The text of an integer has no separator in it. -/
theorem not_mem_integerText (h : integerText serial = some text) : ':' ∉ text.toList := by
  unfold integerText at h
  split at h
  case isFalse => cases h
  case isTrue =>
    cases h
    rw [toString_int, List.mem_append]
    rintro (hsign | hdigit)
    · split at hsign
      · exact absurd (List.mem_singleton.mp hsign) (by decide)
      · exact List.not_mem_nil hsign
    · exact absurd (isDigit_toDigits hdigit) (by decide)

/-- What is joined of the fields of a tag is decoded to them. -/
theorem decode_tag (hpy : py.Lawful) (hhost : ':' ∉ host.toList) (hbot : ':' ∉ botRef.toList)
    (hsymbol : ':' ∉ symbol.toList) (hside : side ∈ ["B", "S"]) (htext : integerText serial = some text) :
    decode py (":".intercalate (fields host botRef symbol side text)) =
      some { host, botRef, symbol, side, serial } := by
  have hsides : ∀ s ∈ ["B", "S"], ':' ∉ s.toList := by decide
  have hfields : ∀ s ∈ fields host botRef symbol side text, ':' ∉ s.toList := by
    have hmark : ':' ∉ refPrefix.toList := by decide
    simp only [fields, List.forall_mem_cons]
    exact ⟨hmark, hhost, hbot, hsymbol, hsides side hside, not_mem_integerText htext, by simp⟩
  have hsplit : split (":".intercalate (fields host botRef symbol side text)) = _ :=
    split_intercalate (by simp [fields]) hfields
  have hstart : (refPrefix ++ ":").toList.isPrefixOf
      (":".intercalate (fields host botRef symbol side text)).toList := by
    rw [List.isPrefixOf_iff_prefix, toList_tag, String.toList_append]
    exact (List.prefix_append_right_inj _).mpr (List.cons_prefix_cons.mpr ⟨rfl, List.nil_prefix⟩)
  have hne : ":".intercalate (fields host botRef symbol side text) ≠ "" := by
    intro hempty
    rw [hempty] at hstart
    exact absurd hstart (by decide)
  rw [decode, if_neg (not_or.mpr ⟨hne, not_not.mpr hstart⟩), hsplit]
  simp only [fields]
  rw [if_neg (not_not.mpr hside), integer_integerText hpy htext]
  rfl

/-- A tag passes the filter of the bot it names, on the box it names, and of no other. -/
theorem tag_passes_iff {host' botRef' : String} (hhost : ':' ∉ host.toList) (hbot : ':' ∉ botRef.toList)
    (hhost' : ':' ∉ host'.toList) (hbot' : ':' ∉ botRef'.toList) :
    (orderRefPrefix host' botRef').toList <+: (":".intercalate (fields host botRef symbol side text)).toList ↔
      host' = host ∧ botRef' = botRef := by
  have hmark : ':' ∉ refPrefix.toList := by decide
  rw [toList_orderRefPrefix, toList_tag, append_cons_prefix_iff hmark hmark, and_iff_right rfl,
    append_cons_prefix_iff hhost' hhost, append_cons_prefix_iff hbot' hbot, String.toList_inj,
    String.toList_inj, and_iff_left List.nil_prefix]

end Tags

-- ============================================================================
-- Whose order it is
-- ============================================================================

section Ownership

variable {py : Python} {host botRef symbol side ref : String} {serial : ℤ}

theorem decode_encode (hpy : py.Lawful) (hencode : encode py host botRef symbol side serial = .ok ref) :
    decode py ref = some { host, botRef, symbol, side, serial } := by
  obtain ⟨hhost, hbot, hsymbol, hside, text, htext, rfl, -⟩ := encode_eq_ok_iff.mp hencode
  exact decode_tag hpy hhost hbot hsymbol hside htext

/-- A box takes a tag for its own only if it made it. -/
theorem encode_isLocal (hpy : py.Lawful) (hencode : encode py host botRef symbol side serial = .ok ref)
    (host' : String) : (decode py ref).any (·.isLocal host') ↔ host' = host := by
  simp [decode_encode hpy hencode, OrderRefInfo.isLocal, eq_comm]

/-- A tag is decoded to the fields it was made of, no other fields make it, and of the bots
    whose name has no separator in it only the one that made it takes its order events. -/
theorem encode_codec (hpy : py.Lawful) (hencode : encode py host botRef symbol side serial = .ok ref) :
    decode py ref = some { host, botRef, symbol, side, serial } ∧
      (∀ host' botRef' symbol' side' serial', encode py host' botRef' symbol' side' serial' = .ok ref →
        host' = host ∧ botRef' = botRef ∧ symbol' = symbol ∧ side' = side ∧ serial' = serial) ∧
      ∀ host' botRef' : String, ':' ∉ host'.toList → ':' ∉ botRef'.toList →
        ∀ (config : StrategyConfig) (event : LedgerEvent),
          config.orderRefPrefix = orderRefPrefix host' botRef' → event.orderRef = ref →
            (tagged config event ↔ host' = host ∧ botRef' = botRef) := by
  refine ⟨decode_encode hpy hencode, ?_, ?_⟩
  · intro host' botRef' symbol' side' serial' hencode'
    have hsame := (decode_encode hpy hencode').symm.trans (decode_encode hpy hencode)
    rw [Option.some.injEq, OrderRefInfo.mk.injEq] at hsame
    exact hsame
  · intro host' botRef' hhost' hbot' config event hprefix hevent
    obtain ⟨hhost, hbot, -, -, text, -, rfl, -⟩ := encode_eq_ok_iff.mp hencode
    rw [tagged, hprefix, hevent, List.isPrefixOf_iff_prefix]
    exact tag_passes_iff hhost hbot hhost' hbot'

/-- The orders of `saw-rsi` are not those of `saw`, of which it is a longer name. -/
theorem encode_codec_sawRsi :
    encode ascii "local-prod" "saw-rsi" "QQQ" "B" 42 = .ok "IBT:local-prod:saw-rsi:QQQ:B:42" ∧
      decode ascii "IBT:local-prod:saw-rsi:QQQ:B:42" =
        some { host := "local-prod", botRef := "saw-rsi", symbol := "QQQ", side := "B", serial := 42 } ∧
      ∀ event : LedgerEvent, event.orderRef = "IBT:local-prod:saw-rsi:QQQ:B:42" →
        ¬ tagged { orderRefPrefix := orderRefPrefix "local-prod" "saw" } event := by
  have hencode : encode ascii "local-prod" "saw-rsi" "QQQ" "B" 42 = .ok "IBT:local-prod:saw-rsi:QQQ:B:42" := by
    decide
  obtain ⟨hdecode, -, hfilter⟩ := encode_codec lawful_ascii hencode
  refine ⟨hencode, hdecode, fun event hevent htagged => ?_⟩
  have hbot := ((hfilter "local-prod" "saw" (by decide) (by decide) _ event rfl hevent).mp htagged).2
  exact absurd hbot (by decide)

end Ownership

end IbTrader.Engine.OrderRef
