import Meemee.Library.Base64
import Meemee.Library.Table
import Meemee.Source.JsonLoads

/-!
# Cursors and the lists that are read page by page

`meemee/cursors.py`, and the four lists that follow its cursors: `JobStore.list_for_principal`,
`TokenStore.list_metadata`, `WebhookStore.list_subscriptions` and `list_deliveries`. Timestamps
and ids are compared as the texts they are stored as. The columns that no condition reads are a
parameter of each row; no stored timestamp or id is empty.
-/
namespace Meemee.Source.Cursors
open Library

/-- The letters of both alphabets: `-` and `_` are translated to `+` and `/` first. -/
def letterValue (c : Char) : Option Nat :=
  if c = '+' then some 62 else if c = '/' then some 63 else Base64.digit c

/-- `binascii.a2b_base64`, which skips what is no letter: the place in the group of four, the bits
left over from the last letter, and the padding since then. -/
def a2b : List Char → Nat → Nat → Nat → Option (List UInt8)
  | [], quad, _, _ => if quad = 0 then some [] else none
  | c :: rest, quad, left, pads =>
    if c = '=' then
      if 2 ≤ quad ∧ 4 ≤ quad + (pads + 1) then some []
      else a2b rest quad left (if 2 ≤ quad then pads + 1 else pads)
    else
      match letterValue c with
      | none => a2b rest quad left pads
      | some v =>
        if quad = 0 then a2b rest 1 v 0
        else if quad = 1 then (a2b rest 2 (v % 16) 0).map (Base64.byte (left * 4 + v / 16) :: ·)
        else if quad = 2 then (a2b rest 3 (v % 4) 0).map (Base64.byte (left * 16 + v / 4) :: ·)
        else (a2b rest 0 0 0).map (Base64.byte (left * 64 + v) :: ·)

/-- Of text, which has to be ASCII. -/
def urlsafeB64decode (text : List Char) : Option (List UInt8) :=
  if text.all (fun c => decide (c.toNat < 128)) then a2b text 0 0 0 else none

inductive Encoding where
  | utf8 | utf8Sig | utf16 | utf16be | utf16le | utf32 | utf32be | utf32le
  deriving DecidableEq, Repr

def detectEncoding (b : List UInt8) : Encoding :=
  let at' (i : Nat) : UInt8 := b.getD i 0
  if [0, 0, 0xFE, 0xFF].isPrefixOf b ∨ [0xFF, 0xFE, 0, 0].isPrefixOf b then .utf32
  else if [0xFE, 0xFF].isPrefixOf b ∨ [0xFF, 0xFE].isPrefixOf b then .utf16
  else if [0xEF, 0xBB, 0xBF].isPrefixOf b then .utf8Sig
  else if 4 ≤ b.length then
    if at' 0 = 0 then if at' 1 = 0 then .utf32be else .utf16be
    else if at' 1 = 0 then if at' 2 = 0 ∧ at' 3 = 0 then .utf32le else .utf16le
    else .utf8
  else if b.length = 2 then
    if at' 0 = 0 then .utf16be else if at' 1 = 0 then .utf16le else .utf8
  else .utf8

/-- Numbers of two or four bytes; none is cut short. -/
def units16 (big : Bool) : List UInt8 → Option (List Nat)
  | [] => some []
  | a :: b :: rest =>
    (units16 big rest).map ((if big then a.toNat * 256 + b.toNat else b.toNat * 256 + a.toNat) :: ·)
  | _ => none

def units32 (big : Bool) : List UInt8 → Option (List Nat)
  | [] => some []
  | a :: b :: c :: d :: rest =>
    (units32 big rest).map
      ((if big then ((a.toNat * 256 + b.toNat) * 256 + c.toNat) * 256 + d.toNat
        else ((d.toNat * 256 + c.toNat) * 256 + b.toNat) * 256 + a.toNat) :: ·)
  | _ => none

/-- The characters of UTF-16 code units. -/
def chars16 : List Nat → Option (List Char)
  | [] => some []
  | high :: rest =>
    if 55296 ≤ high ∧ high < 56320 then
      match rest with
      | [] => none
      | low :: rest =>
        if 56320 ≤ low ∧ low < 57344 then
          (chars16 rest).map (Char.ofNat (65536 + (high - 55296) * 1024 + (low - 56320)) :: ·)
        else none
    else if 56320 ≤ high ∧ high < 57344 then none
    else (chars16 rest).map (Char.ofNat high :: ·)

def chars32 (codes : List Nat) : Option (List Char) :=
  if codes.all (fun n => decide (n < 55296 ∨ 57343 < n ∧ n < 1114112)) then
    some (codes.map Char.ofNat)
  else none

def utf16 (big : Bool) (b : List UInt8) : Option String :=
  ((units16 big b).bind chars16).map String.ofList

def utf32 (big : Bool) (b : List UInt8) : Option String :=
  ((units32 big b).bind chars32).map String.ofList

def utf8 (b : List UInt8) : Option String := String.fromUTF8? ⟨b.toArray⟩

/-- `bytes.decode`: the encodings with a mark drop it. -/
def decodeText (b : List UInt8) : Encoding → Option String
  | .utf8 => utf8 b
  | .utf8Sig => utf8 (b.drop 3)
  | .utf16 => utf16 (decide (b.head? = some 0xFE)) (b.drop 2)
  | .utf16be => utf16 true b
  | .utf16le => utf16 false b
  | .utf32 => utf32 (decide (b.head? = some 0)) (b.drop 4)
  | .utf32be => utf32 true b
  | .utf32le => utf32 false b

def loadsBytes (b : List UInt8) : Option Json :=
  (decodeText b (detectEncoding b)).bind JsonLoads.loads

def unpadded (text : List Char) : List Char :=
  (text.reverse.dropWhile (fun c => decide (c = '='))).reverse

/-- `"=" * (-len(value) % 4)`. -/
def padding (length : Nat) : List Char := List.replicate ((4 - length % 4) % 4) '='

def encodeCursor (sortValue ident : String) : Except Exc String := do
  let text ← Json.dumps { compact := true } (.arr [.str sortValue, .str ident])
  return String.ofList (unpadded (Base64.encode text.toUTF8.data.toList))

def invalidCursor : Exc := .valueError "invalid pagination cursor"

/-- Two strings that are not empty. -/
def textPair : Json → Option (String × String)
  | .arr [.str sortValue, .str ident] =>
    if sortValue ≠ "" ∧ ident ≠ "" then some (sortValue, ident) else none
  | _ => none

def decodeCursor (value : String) : Except Exc (String × String) :=
  match ((urlsafeB64decode (value.toList ++ padding value.length)).bind loadsBytes).bind textPair with
  | some pair => .ok pair
  | none => .error invalidCursor

/-- `min(max(limit, 1), 500)`. -/
def pageSize (limit : Int) : Nat := (min (max limit 1) 500).toNat

/-- `time<? OR (time=? AND id<?)`. -/
def older (a b : String × String) : Bool := decide (a.1 < b.1 ∨ a.1 = b.1 ∧ a.2 < b.2)

section Page

variable {ρ : Type} (stamp : ρ → String × String)

/-- `ORDER BY time DESC,id DESC`. -/
def newestFirst (rows : List ρ) : List ρ :=
  rows.insertionSort (fun a b => older (stamp a) (stamp b) = false)

def readCursor : Option String → Except Exc (Option (String × String))
  | none => .ok none
  | some text => (decodeCursor text).map some

/-- `encode_cursor(items[-1]...) if len(rows) > page_size else None`. -/
def nextCursor (items : List ρ) (more : Bool) : Except Exc (Option String) :=
  match items.getLast? with
  | some last => if more then (encodeCursor (stamp last).1 (stamp last).2).map some else .ok none
  | none => .ok none

/-- The query of a list and its page: the rows of the table that meet the filter, and the cursor
of the next page. -/
def listPage (rows : List ρ) (p : ρ → Bool) (limit : Int) (cursor : Option String) :
    Except Exc (List ρ × Option String) := do
  let bound ← readCursor cursor
  let selected := (newestFirst stamp (rows.filter (fun r =>
    p r && bound.all (older (stamp r))))).take (pageSize limit + 1)
  let items := selected.take (pageSize limit)
  let next ← nextCursor stamp items (decide (pageSize limit < selected.length))
  return (items, next)

end Page

/-- A filter that is left out when its argument is. -/
def given {α : Type} (argument : Option α) (p : α → Bool) : Bool := argument.all p

/-- An argument tested for truth: the empty string is none. -/
def truthy (argument : Option String) : Option String := argument.filter (fun text => text ≠ "")

variable {γ : Type}

structure JobRow (γ : Type) where
  id : String
  principal : String
  status : String
  updatedAt : String
  columns : γ
  stamped : updatedAt ≠ "" ∧ id ≠ ""

def JobRow.stamp (r : JobRow γ) : String × String := (r.updatedAt, r.id)

def jobFilter (principal : String) (status before : Option String) (r : JobRow γ) : Bool :=
  decide (r.principal = principal) && given status (fun s => decide (r.status = s)) &&
    given before (fun t => decide (r.updatedAt < t))

def listForPrincipal (jobs : Table (JobRow.id (γ := γ))) (principal : String)
    (status before : Option String) (limit : Int) (cursor : Option String) :
    Except Exc (List (JobRow γ) × Option String) :=
  listPage JobRow.stamp jobs.rows (jobFilter principal status before) limit cursor

structure TokenRow (γ : Type) where
  id : String
  createdAt : String
  revokedAt : Option String
  ownerId : Option String
  tokenKind : String
  columns : γ
  stamped : createdAt ≠ "" ∧ id ≠ ""

def TokenRow.stamp (r : TokenRow γ) : String × String := (r.createdAt, r.id)

def tokenFilter (revoked : Option Bool) (before ownerId tokenKind : Option String)
    (r : TokenRow γ) : Bool :=
  given ownerId (fun owner => decide (r.ownerId = some owner)) &&
    given tokenKind (fun kind => decide (r.tokenKind = kind)) &&
    given revoked (fun gone => r.revokedAt.isSome == gone) &&
    given before (fun t => decide (r.createdAt < t))

def listMetadata (tokens : Table (TokenRow.id (γ := γ))) (revoked : Option Bool)
    (before : Option String) (limit : Int) (cursor ownerId tokenKind : Option String) :
    Except Exc (List (TokenRow γ) × Option String) :=
  listPage TokenRow.stamp tokens.rows (tokenFilter revoked before ownerId tokenKind) limit cursor

structure SubscriptionRow (γ : Type) where
  id : String
  principal : String
  createdAt : String
  columns : γ
  stamped : createdAt ≠ "" ∧ id ≠ ""

def SubscriptionRow.stamp (r : SubscriptionRow γ) : String × String := (r.createdAt, r.id)

def subscriptionFilter (principal : String) (r : SubscriptionRow γ) : Bool :=
  decide (r.principal = principal)

def listSubscriptions (subscriptions : Table (SubscriptionRow.id (γ := γ))) (principal : String)
    (limit : Int) (cursor : Option String) : Except Exc (List (SubscriptionRow γ) × Option String) :=
  listPage SubscriptionRow.stamp subscriptions.rows (subscriptionFilter principal) limit
    (truthy cursor)

structure DeliveryRow (γ : Type) where
  id : String
  subscriptionId : String
  status : String
  createdAt : String
  columns : γ
  stamped : createdAt ≠ "" ∧ id ≠ ""

def DeliveryRow.stamp (r : DeliveryRow γ) : String × String := (r.createdAt, r.id)

/-- Of the join with the subscription of a delivery, of which there is one. -/
def deliveryFilter (subscriptions : Table (SubscriptionRow.id (γ := γ))) (principal : String)
    (status after : Option String) (r : DeliveryRow γ) : Bool :=
  (subscriptions.find r.subscriptionId).any (fun s => decide (s.principal = principal)) &&
    given (truthy status) (fun s => decide (r.status = s)) &&
    given (truthy after) (fun ident => decide (ident < r.id))

def listDeliveries (subscriptions : Table (SubscriptionRow.id (γ := γ)))
    (deliveries : Table (DeliveryRow.id (γ := γ))) (principal : String)
    (status after : Option String) (limit : Int) (cursor : Option String) :
    Except Exc (List (DeliveryRow γ) × Option String) :=
  listPage DeliveryRow.stamp deliveries.rows (deliveryFilter subscriptions principal status after)
    limit (truthy cursor)

end Meemee.Source.Cursors
