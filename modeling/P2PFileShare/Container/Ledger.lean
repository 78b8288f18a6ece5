import Mathlib.Data.Finset.Basic
import Mathlib.Logic.Function.Basic

/-!
# Who holds what

A ledger knows which handles have been issued and not yet returned, and which handle
each holder has.  Holders acquire fresh handles, pass their handle on, forget it, or
return it.  No move makes two holders share a handle, and none returns a handle twice;
what can happen is that a handle is overwritten, and then nobody can ever return it.
`Leaked` describes these handles, and one lemma for each move says exactly which handle
it adds.
-/

namespace P2PFileShare.Container

/-- Handles of type `α`, and holders of type `ι` with room for one each. -/
structure Ledger (ι α : Type) where
  issued : Finset α
  holding : ι → Option α

namespace Ledger

variable {ι α : Type} [DecidableEq ι] [DecidableEq α] (ledger : Ledger ι α)

def empty : Ledger ι α where
  issued := ∅
  holding _ := none

/-- A holder is given a handle, and what it had is overwritten. -/
def acquire (holder : ι) (handle : α) : Ledger ι α where
  issued := insert handle ledger.issued
  holding := Function.update ledger.holding holder (some handle)

/-- What a holder had is overwritten by nothing. -/
def forget (holder : ι) : Ledger ι α :=
  { ledger with holding := Function.update ledger.holding holder none }

/-- The handle of one holder is passed to another one, over what that one had. -/
def transfer (source target : ι) : Ledger ι α :=
  { ledger with
    holding := Function.update
      (Function.update ledger.holding target (ledger.holding source)) source none }

/-- A holder returns its handle, if it has one. -/
def release (holder : ι) : Ledger ι α where
  issued :=
    match ledger.holding holder with
    | some handle => ledger.issued.erase handle
    | none => ledger.issued
  holding := Function.update ledger.holding holder none

/-- Only issued handles are held, each by one holder at most. -/
structure Sound : Prop where
  issued : ∀ holder handle, ledger.holding holder = some handle → handle ∈ ledger.issued
  unique : ∀ first second handle, ledger.holding first = some handle →
    ledger.holding second = some handle → first = second

/-- An issued handle that nobody holds. -/
def Leaked (handle : α) : Prop :=
  handle ∈ ledger.issued ∧ ∀ holder, ledger.holding holder ≠ some handle

variable {ledger}

omit [DecidableEq ι] [DecidableEq α] in
theorem sound_empty : (empty : Ledger ι α).Sound := by
  constructor
  · intro holder handle held
    cases held
  · intro first second handle held
    cases held

omit [DecidableEq ι] [DecidableEq α] in
theorem not_leaked_empty (handle : α) : ¬(empty : Ledger ι α).Leaked handle := by
  rintro ⟨issued, _⟩
  exact absurd issued (Finset.notMem_empty handle)

theorem Sound.acquire (sound : ledger.Sound) {handle : α} (fresh : handle ∉ ledger.issued)
    (holder : ι) : (ledger.acquire holder handle).Sound := by
  rcases sound with ⟨issued, unique⟩
  constructor
  · intro other held has
    simp only [Ledger.acquire, Function.update_apply, Finset.mem_insert] at has ⊢
    grind
  · intro first second held has shares
    simp only [Ledger.acquire, Function.update_apply] at has shares
    grind

omit [DecidableEq α] in
theorem Sound.forget (sound : ledger.Sound) (holder : ι) : (ledger.forget holder).Sound := by
  rcases sound with ⟨issued, unique⟩
  constructor
  · intro other held has
    simp only [Ledger.forget, Function.update_apply] at has ⊢
    grind
  · intro first second held has shares
    simp only [Ledger.forget, Function.update_apply] at has shares
    grind

omit [DecidableEq α] in
theorem Sound.transfer (sound : ledger.Sound) (source target : ι) :
    (ledger.transfer source target).Sound := by
  rcases sound with ⟨issued, unique⟩
  constructor
  · intro other held has
    simp only [Ledger.transfer, Function.update_apply] at has ⊢
    grind
  · intro first second held has shares
    simp only [Ledger.transfer, Function.update_apply] at has shares
    grind

theorem Sound.release (sound : ledger.Sound) (holder : ι) : (ledger.release holder).Sound := by
  rcases sound with ⟨issued, unique⟩
  constructor
  · intro other held has
    simp only [Ledger.release, Function.update_apply] at has ⊢
    grind
  · intro first second held has shares
    simp only [Ledger.release, Function.update_apply] at has shares
    grind

/-- Acquiring leaks what the holder had. -/
theorem leaked_acquire_iff (sound : ledger.Sound) {handle : α} (fresh : handle ∉ ledger.issued)
    (holder : ι) (other : α) :
    (ledger.acquire holder handle).Leaked other ↔
      ledger.Leaked other ∨ ledger.holding holder = some other := by
  rcases sound with ⟨issued, unique⟩
  simp only [Leaked, Ledger.acquire, Function.update_apply, Finset.mem_insert]
  grind

omit [DecidableEq α] in
theorem leaked_forget_iff (sound : ledger.Sound) (holder : ι) (other : α) :
    (ledger.forget holder).Leaked other ↔
      ledger.Leaked other ∨ ledger.holding holder = some other := by
  rcases sound with ⟨issued, unique⟩
  simp only [Leaked, Ledger.forget, Function.update_apply]
  grind

omit [DecidableEq α] in
/-- So does a transfer to a holder that has a handle, also to itself. -/
theorem leaked_transfer_iff (sound : ledger.Sound) (source target : ι) (other : α) :
    (ledger.transfer source target).Leaked other ↔
      ledger.Leaked other ∨ ledger.holding target = some other := by
  rcases sound with ⟨issued, unique⟩
  simp only [Leaked, Ledger.transfer, Function.update_apply]
  grind

theorem leaked_release_iff (sound : ledger.Sound) (holder : ι) (other : α) :
    (ledger.release holder).Leaked other ↔ ledger.Leaked other := by
  rcases sound with ⟨issued, unique⟩
  simp only [Leaked, Ledger.release, Function.update_apply]
  grind

end Ledger

end P2PFileShare.Container
