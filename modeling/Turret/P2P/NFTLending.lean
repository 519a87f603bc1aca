import Turret.ERC4626
import Turret.Library.NftLedger
import Turret.P2P.Vault

/-! `TurretNFTLending` and `TurretNFTVault`: fixed-term loans against one NFT, each
offer with a vault of its own that holds the lender's USDG and the borrower's NFT.
Amounts are naturals: where the contract's checked arithmetic would overflow it
reverts, so its runs are among the runs below. USDG is exact-transfer and the
collections are honest; safe transfers run the code of the receiver, which may
make any calls before it accepts or reverts. The address of a new clone is an
argument of the call that creates it. -/

namespace Turret.NFTLending

open Execution ERC4626 Function

inductive Error
  | unauthorized
  | invalidConfiguration
  | invalidTerms
  | admissionPaused
  | collectionNotAllowed
  | wrongStatus
  | offerExpired
  | wrongOwner
  | deadlinePassed
  | tooEarly
  | unsupportedTransfer
  | invalidWithdrawal
  | invalidPagination
  | reentrantCall
  | transfer (cause : P2PVault.TransferError)
  | erc721
  | receiver
  | panic
  deriving DecidableEq

/-- `1 days`. -/
def GRACE_PERIOD : ℕ := 86400
def MAX_TIMESTAMP : ℕ := 8640000000000
def MAX_PAGE_SIZE : ℕ := 50

inductive Status
  | none
  | open_
  | active
  | repaid
  | defaulted
  | cancelled
  | expired
  deriving DecidableEq

structure Terms where
  borrower : Address
  collection : Address
  tokenId : ℕ
  principal : ℕ
  interest : ℕ
  duration : ℕ
  expiresAt : ℕ

structure Offer where
  lender : Address
  terms : Terms
  vault : Address
  dueAt : ℕ
  status : Status
  usdgCredit : ℕ
  nftBeneficiary : Address

def noOffer : Offer := ⟨0, ⟨0, 0, 0, 0, 0, 0, 0⟩, 0, 0, .none, 0, 0⟩

/-- The storage of a `TurretNFTVault`. -/
structure Vault where
  collection : Address
  tokenId : ℕ
  deriving DecidableEq

structure Market where
  owner : Address
  pendingOwner : Address
  newLoansPaused : Bool
  nextOfferId : ℕ
  reservedPrincipal : ℕ
  activePrincipal : ℕ
  totalUSDGCredits : ℕ
  allowedCollections : Address → Bool
  offers : ℕ → Offer
  accountOfferIds : Address → List ℕ
  entered : Bool

structure World where
  self : Address
  loanToken : Address
  vaultImplementation : Address
  /-- The contracts that answer `supportsInterface` for ERC-721. -/
  supportsERC721 : Address → Bool
  now : ℕ
  usdg : TokenLedger Address
  nft : Address → NftLedger
  vaultAt : Address → Option Vault
  market : Market

/-! ### The vault -/

/-- `initialize`. -/
def initializeVault (manager sender collection : Address) (tokenId : ℕ) (v : Vault) :
    Except Error Vault := do
  revertIf (sender ≠ manager ∨ v.collection ≠ 0) .unauthorized
  pure ⟨collection, tokenId⟩

/-- `onERC721Received`. -/
def onERC721Received (manager sender operator src : Address) (id : ℕ) (v : Vault) :
    Except Error Unit :=
  revertIf (sender ≠ v.collection ∨ operator ≠ manager ∨ src = 0 ∨ id ≠ v.tokenId)
    (.transfer .invalidTransfer)

/-- `transferUSDG`, called by the manager. -/
def transferUSDG (vault recipient : Address) (amount : ℕ) (w : World) : Except Error World := do
  let usdg ← (P2PVault.transferTo vault recipient amount w.usdg).mapError .transfer
  pure { w with usdg }

/-- The code at `dst` that a safe transfer calls: that of a vault, or `foreign`. -/
def received (foreign : World → Except Error World) (collection operator src dst : Address) (id : ℕ)
    (w : World) : Except Error World :=
  match w.vaultAt dst with
  | some v => do
    onERC721Received w.self collection operator src id v
    pure w
  | none => foreign w

/-- `safeTransferFrom` of a collection. -/
def safeTransferFrom (foreign : World → Except Error World)
    (collection operator src dst : Address) (id : ℕ) (w : World) : Except Error World := do
  let next ← orRevert ((w.nft collection).transferFrom operator src dst id) .erc721
  received foreign collection operator src dst id { w with nft := update w.nft collection next }

/-- `transferNFT`, called by the manager. -/
def transferNFT (foreign : World → Except Error World) (vault recipient : Address) (w : World) :
    Except Error World := do
  revertIf (recipient = 0 ∨ recipient = vault) (.transfer .invalidTransfer)
  let v ← orRevert (w.vaultAt vault) .panic
  let w ← safeTransferFrom foreign v.collection vault vault recipient v.tokenId w
  revertIf ((w.nft v.collection).ownerOf v.tokenId ≠ recipient) .unsupportedTransfer
  pure w

/-! ### Guards and helpers -/

def nonReentrant (body : World → Except Error World) (w : World) : Except Error World := do
  revertIf (w.market.entered = true) .reentrantCall
  let w ← body { w with market := { w.market with entered := true } }
  pure { w with market := { w.market with entered := false } }

def onlyOwner (sender : Address) (w : World) : Except Error Unit :=
  revertIf (sender ≠ w.market.owner) .unauthorized

/-- `_admission`. -/
def admission (collection : Address) (w : World) : Except Error Unit := do
  revertIf (w.market.newLoansPaused = true) .admissionPaused
  revertIf (w.market.allowedCollections collection = false) .collectionNotAllowed

/-- `_recipient`. -/
def validRecipient (recipient vault : Address) (w : World) : Except Error Unit :=
  revertIf (recipient = 0 ∨ recipient = w.self ∨ recipient = vault ∨
    recipient = w.vaultImplementation) .invalidWithdrawal

/-- `_pull`. -/
def pull (src vault : Address) (amount : ℕ) (w : World) : Except Error World := do
  let usdg ← (P2PVault.pullExact w.self src vault amount w.usdg).mapError .transfer
  pure { w with usdg }

def setOffer (id : ℕ) (offer : Offer) (m : Market) : Market :=
  { m with offers := update m.offers id offer }

/-- The account's index ends with `id`. -/
def indexed (account : Address) (id : ℕ) (m : Market) : Market :=
  { m with accountOfferIds := update m.accountOfferIds account (m.accountOfferIds account ++ [id]) }

/-! ### Configuration -/

def setCollectionAllowed (sender collection : Address) (allowed : Bool) (w : World) :
    Except Error World := do
  onlyOwner sender w
  revertIf (allowed = true ∧ (collection = w.loanToken ∨ collection = w.self ∨
    w.supportsERC721 collection = false)) .invalidConfiguration
  let m := w.market
  pure { w with
    market := { m with allowedCollections := update m.allowedCollections collection allowed } }

def setNewLoansPaused (sender : Address) (paused : Bool) (w : World) : Except Error World := do
  onlyOwner sender w
  pure { w with market := { w.market with newLoansPaused := paused } }

def nominateOwner (sender nominee : Address) (w : World) : Except Error World := do
  onlyOwner sender w
  revertIf (nominee = 0 ∨ nominee = w.self) .invalidConfiguration
  pure { w with market := { w.market with pendingOwner := nominee } }

def acceptOwnership (sender : Address) (w : World) : Except Error World := do
  revertIf (sender ≠ w.market.pendingOwner) .unauthorized
  pure { w with market := { w.market with owner := sender, pendingOwner := 0 } }

/-! ### Offers and loans -/

def createOffer (sender : Address) (terms : Terms) (vault : Address) (w : World) :
    Except Error World := do
  admission terms.collection w
  revertIf (terms.borrower = sender ∨ terms.borrower = w.self ∨ terms.principal = 0 ∨
    maxUint - terms.principal < terms.interest ∨ terms.duration = 0 ∨
    terms.duration % 86400 ≠ 0 ∨ terms.expiresAt ≤ w.now ∨
    MAX_TIMESTAMP - GRACE_PERIOD < terms.expiresAt ∨
    MAX_TIMESTAMP - GRACE_PERIOD - terms.expiresAt < terms.duration) .invalidTerms
  let holder := (w.nft terms.collection).ownerOf terms.tokenId
  revertIf (holder = 0 ∨ (terms.borrower ≠ 0 ∧ holder ≠ terms.borrower)) .wrongOwner
  let m := w.market
  let id := m.nextOfferId
  let v ← initializeVault w.self w.self terms.collection terms.tokenId ⟨0, 0⟩
  let m := setOffer id ⟨sender, terms, vault, 0, .open_, 0, 0⟩ { m with nextOfferId := id + 1 }
  let m := indexed sender id m
  let m := if terms.borrower ≠ 0 then indexed terms.borrower id m else m
  let m := { m with reservedPrincipal := m.reservedPrincipal + terms.principal }
  pull sender vault terms.principal
    { w with market := m, vaultAt := update w.vaultAt vault (some v) }

def acceptOffer (foreign : World → Except Error World) (sender : Address) (id : ℕ) (w : World) :
    Except Error World := do
  let m := w.market
  let offer := m.offers id
  revertIf (offer.status ≠ .open_) .wrongStatus
  let terms := offer.terms
  admission terms.collection w
  revertIf (terms.expiresAt ≤ w.now) .offerExpired
  revertIf (sender = offer.lender ∨ (terms.borrower ≠ 0 ∧ sender ≠ terms.borrower)) .unauthorized
  revertIf ((w.nft terms.collection).ownerOf terms.tokenId ≠ sender) .wrongOwner
  let m := if terms.borrower = 0 then indexed sender id m else m
  let m := setOffer id
    { offer with
      terms := { terms with borrower := sender }
      status := .active
      dueAt := w.now + terms.duration } m
  let reserved ← checkedSub m.reservedPrincipal terms.principal .panic
  let m :=
    { m with
      reservedPrincipal := reserved
      activePrincipal := m.activePrincipal + terms.principal }
  let w ← safeTransferFrom foreign terms.collection w.self sender offer.vault terms.tokenId
    { w with market := m }
  revertIf ((w.nft terms.collection).ownerOf terms.tokenId ≠ offer.vault) .unsupportedTransfer
  transferUSDG offer.vault sender terms.principal w

/-- `_close`. -/
def close (id : ℕ) (status : Status) (w : World) : Except Error World := do
  let m := w.market
  let offer := m.offers id
  revertIf (offer.status ≠ .open_) .wrongStatus
  let reserved ← checkedSub m.reservedPrincipal offer.terms.principal .panic
  let m := setOffer id { offer with status, usdgCredit := offer.terms.principal } m
  pure { w with
    market :=
      { m with
        reservedPrincipal := reserved
        totalUSDGCredits := m.totalUSDGCredits + offer.terms.principal } }

def cancelOffer (sender : Address) (id : ℕ) (w : World) : Except Error World := do
  revertIf (sender ≠ (w.market.offers id).lender) .unauthorized
  close id .cancelled w

def expireOffer (id : ℕ) (w : World) : Except Error World := do
  revertIf (w.now < (w.market.offers id).terms.expiresAt) .tooEarly
  close id .expired w

def repay (sender : Address) (id : ℕ) (w : World) : Except Error World := do
  let m := w.market
  let offer := m.offers id
  revertIf (offer.status ≠ .active) .wrongStatus
  revertIf (offer.dueAt + GRACE_PERIOD < w.now) .deadlinePassed
  let amount := offer.terms.principal + offer.terms.interest
  let active ← checkedSub m.activePrincipal offer.terms.principal .panic
  let m := setOffer id
    { offer with status := .repaid, usdgCredit := amount, nftBeneficiary := offer.terms.borrower } m
  let m :=
    { m with activePrincipal := active, totalUSDGCredits := m.totalUSDGCredits + amount }
  pull sender offer.vault amount { w with market := m }

def settleDefault (id : ℕ) (w : World) : Except Error World := do
  let m := w.market
  let offer := m.offers id
  revertIf (offer.status ≠ .active) .wrongStatus
  revertIf (w.now ≤ offer.dueAt + GRACE_PERIOD) .tooEarly
  let active ← checkedSub m.activePrincipal offer.terms.principal .panic
  let m := setOffer id { offer with status := .defaulted, nftBeneficiary := offer.lender } m
  pure { w with market := { m with activePrincipal := active } }

def withdrawUSDG (sender : Address) (id amount : ℕ) (recipient : Address) (w : World) :
    Except Error World := do
  let m := w.market
  let offer := m.offers id
  revertIf (sender ≠ offer.lender) .unauthorized
  validRecipient recipient offer.vault w
  revertIf (amount = 0 ∨ offer.usdgCredit < amount) .invalidWithdrawal
  let credit ← checkedSub offer.usdgCredit amount .panic
  let total ← checkedSub m.totalUSDGCredits amount .panic
  let m := { setOffer id { offer with usdgCredit := credit } m with totalUSDGCredits := total }
  transferUSDG offer.vault recipient amount { w with market := m }

def withdrawNFT (foreign : World → Except Error World) (sender : Address) (id : ℕ)
    (recipient : Address) (w : World) : Except Error World := do
  let offer := w.market.offers id
  revertIf (sender ≠ offer.nftBeneficiary) .unauthorized
  validRecipient recipient offer.vault w
  let m := setOffer id { offer with nftBeneficiary := 0 } w.market
  transferNFT foreign offer.vault recipient { w with market := m }

/-! ### Calls -/

inductive Call
  | setCollectionAllowed (sender collection : Address) (allowed : Bool)
  | setNewLoansPaused (sender : Address) (paused : Bool)
  | nominateOwner (sender nominee : Address)
  | acceptOwnership (sender : Address)
  | createOffer (sender : Address) (terms : Terms) (vault : Address)
  | acceptOffer (sender : Address) (id : ℕ)
  | cancelOffer (sender : Address) (id : ℕ)
  | expireOffer (sender : Address) (id : ℕ)
  | repay (sender : Address) (id : ℕ)
  | settleDefault (sender : Address) (id : ℕ)
  | withdrawUSDG (sender : Address) (id amount : ℕ) (recipient : Address)
  | withdrawNFT (sender : Address) (id : ℕ) (recipient : Address)
  | callToken (call : TokenCall Address)
  | callCollection (collection : Address) (call : NftCall)
  | elapse (seconds : ℕ)

/-- Minting and time have no caller. -/
def Call.sender : Call → Option Address
  | .setCollectionAllowed sender .. | .setNewLoansPaused sender _ | .nominateOwner sender _
  | .acceptOwnership sender | .createOffer sender .. | .acceptOffer sender _ | .cancelOffer sender _
  | .expireOffer sender _ | .repay sender _ | .settleDefault sender _ | .withdrawUSDG sender ..
  | .withdrawNFT sender .. => some sender
  | .callToken call => call.sender
  | .callCollection _ call => call.sender
  | .elapse _ => none

/-- A call, with the code of the receiver of an NFT that it sends. Time stands still in a call. -/
def exec (foreign : World → Except Error World) (call : Call) (w : World) : Except Error World :=
  match call with
  | .setCollectionAllowed sender collection allowed =>
    nonReentrant (setCollectionAllowed sender collection allowed) w
  | .setNewLoansPaused sender paused => nonReentrant (setNewLoansPaused sender paused) w
  | .nominateOwner sender nominee => nonReentrant (nominateOwner sender nominee) w
  | .acceptOwnership sender => nonReentrant (acceptOwnership sender) w
  | .createOffer sender terms vault => nonReentrant (createOffer sender terms vault) w
  | .acceptOffer sender id => nonReentrant (acceptOffer foreign sender id) w
  | .cancelOffer sender id => nonReentrant (cancelOffer sender id) w
  | .expireOffer _ id => nonReentrant (expireOffer id) w
  | .repay sender id => nonReentrant (repay sender id) w
  | .settleDefault _ id => nonReentrant (settleDefault id) w
  | .withdrawUSDG sender id amount recipient =>
    nonReentrant (withdrawUSDG sender id amount recipient) w
  | .withdrawNFT sender id recipient => nonReentrant (withdrawNFT foreign sender id recipient) w
  | .callToken call => do
    let usdg ← orRevert (call.exec w.usdg) (.transfer .erc20)
    pure { w with usdg }
  | .callCollection collection call => do
    let next ← orRevert (call.exec (w.nft collection)) .erc721
    pure { w with nft := update w.nft collection next }
  | .elapse seconds => do
    revertIf (w.market.entered = true) .reentrantCall
    pure { w with now := w.now + seconds }

/-- The code of a receiver: the calls it makes, or has others make, each of which may fail without
the others, and whether it accepts. -/
structure Receiver where
  calls : List Call
  accepts : Bool

def runCalls : List Call → World → World
  | [], w => w
  | call :: rest, w => runCalls rest (reached w (exec .ok call w))

def Receiver.run (r : Receiver) (w : World) : Except Error World := do
  revertIf (r.accepts = false) .receiver
  pure (runCalls r.calls w)

/-- A transaction: a call, and the code of the receiver of the NFT that it sends, if any. -/
structure Tx where
  call : Call
  receiver : Receiver

def transact (tx : Tx) (w : World) : Except Error World := exec tx.receiver.run tx.call w

/-! ### Views -/

/-- `getOfferBatch`. -/
def getOfferBatch (ids : List ℕ) (w : World) : Except Error (List Offer) := do
  revertIf (MAX_PAGE_SIZE < ids.length) .invalidPagination
  pure (ids.map w.market.offers)

/-- `accountOffers`. -/
def accountOffers (account : Address) (cursor limit : ℕ) (w : World) :
    Except Error (List ℕ × ℕ) := do
  let all := w.market.accountOfferIds account
  revertIf (limit = 0 ∨ MAX_PAGE_SIZE < limit ∨ all.length < cursor) .invalidPagination
  let count := min (all.length - cursor) limit
  pure ((all.drop cursor).take count, cursor + count)

/-- What the constructor leaves. -/
def deployed (owner : Address) : Market where
  owner := owner
  pendingOwner := 0
  newLoansPaused := true
  nextOfferId := 1
  reservedPrincipal := 0
  activePrincipal := 0
  totalUSDGCredits := 0
  allowedCollections _ := false
  offers _ := noOffer
  accountOfferIds _ := []
  entered := false

end Turret.NFTLending
