import AioMoqt.Lib.Sliding

/-!
# The playout model of a track

`_playout` of `utils/media_stats.py`: a live player that holds its target latency, and how many
objects come too late for it.  Times are in microseconds; the sampled percentiles of the buffer
level are left out.
-/

namespace AioMoqt.MediaStats

open AioMoqt.Lib.Sliding

/-- `_ARRIVAL_KEEP_US`. -/
def arrivalKeepUs : Int := 60000000

/-- `_BASE_WINDOW_US`. -/
def baseWindowUs : Int := 10000000

/-- What a track's analysis keeps for its playout model. -/
structure Playout where
  cushionUs : Int
  preAnchor : Nat := 0
  late : Nat := 0
  underruns : Nat := 0
  stallUs : Int := 0
  ivBuf : List Int := []
  bufMin : Option Int := none
  keyed : Bool := false
  base : List (Int × Int) := []
  stallEnd : Int := 0
  maxM : Option Int := none
  arrivals : List (Int × Int) := []
  deriving DecidableEq, Repr

namespace Playout

/-- `_base` with an object: its transit is entered, and what is older than the window goes. -/
def withTransit (p : Playout) (mUs recvUs : Int) : List (Int × Int) :=
  slide (recvUs - baseWindowUs) p.base (recvUs, recvUs - mUs)

/-- `target`: the fastest transit in the window plus the cushion. -/
def target (p : Playout) (mUs recvUs : Int) : Int :=
  match p.withTransit mUs recvUs with
  | [] => p.cushionUs
  | fastest :: _ => fastest.2 + p.cushionUs

/-- `_newer_by`: had an object newer than `mUs` arrived by `tUs`? -/
def newerBy (p : Playout) (mUs tUs : Int) : Bool := exceededBy p.arrivals mUs tUs

/-- The buffer level when an object arrives, once there was one before. -/
def noteBuffer (p : Playout) (target recvUs : Int) : Playout :=
  match p.maxM with
  | none => p
  | some maxM =>
      let buf := max 0 (maxM + target - recvUs)
      { p with
        ivBuf := p.ivBuf ++ [buf]
        bufMin := some (p.bufMin.elim buf fun least => min least buf) }

/-- An object that comes behind its deadline, and whether the player had run dry by then. -/
def noteLate (p : Playout) (mUs deadline recvUs : Int) : Playout :=
  if deadline < recvUs then
    let p := { p with late := p.late + 1 }
    if p.newerBy mUs deadline then p
    else
      -- late objects inside one starved stretch are one underrun
      let p :=
        if p.stallEnd < deadline then
          { p with underruns := p.underruns + 1, stallUs := p.stallUs + (recvUs - deadline) }
        else { p with stallUs := p.stallUs + max 0 (recvUs - p.stallEnd) }
      { p with stallEnd := max p.stallEnd recvUs }
  else p

/-- The newest media time so far, and when it arrived. -/
def noteArrival (p : Playout) (mUs recvUs : Int) : Playout :=
  let maxM := raise p.maxM mUs
  { p with
    maxM := some maxM
    arrivals := expire (recvUs - arrivalKeepUs) (p.arrivals ++ [(recvUs, maxM)]) }

/-- `_playout`. -/
def playout (p : Playout) (oid : Nat) (mUs recvUs : Int) : Playout :=
  if p.keyed = false ∧ oid ≠ 0 then { p with preAnchor := p.preAnchor + 1 }
  else
    let target := p.target mUs recvUs
    let p := { p with keyed := true, base := p.withTransit mUs recvUs }
    ((p.noteBuffer target recvUs).noteLate mUs (mUs + target) recvUs).noteArrival mUs recvUs

end Playout

/-! ## Objects in the order of their arrival -/

/-- An object that `_playout` is called for. -/
structure Played where
  oid : Nat
  mUs : Int
  recvUs : Int
  deriving DecidableEq, Repr

namespace Played

def transit (o : Played) : Int := o.recvUs - o.mUs

/-- The playout model behind objects. -/
def run (cushionUs : Int) (objects : List Played) : Playout :=
  objects.foldl (fun p o => p.playout o.oid o.mUs o.recvUs) { cushionUs := cushionUs }

/-- The objects arrive in this order, a key frame first. -/
structure Arrive (objects : List Played) : Prop where
  timed : objects.Pairwise fun a b => a.recvUs ≤ b.recvUs
  keyed : ∀ first ∈ objects.head?, first.oid = 0

/-- An object newer than `mUs` was received by `tUs`. -/
def Newer (objects : List Played) (mUs tUs : Int) : Prop :=
  ∃ e ∈ objects, mUs < e.mUs ∧ e.recvUs ≤ tUs

/-- Where there was a newer object by `tUs`, some object was received by `tUs` at most
`_ARRIVAL_KEEP_US` before the last one. -/
def Told (objects : List Played) (mUs tUs : Int) : Prop :=
  Newer objects mUs tUs →
    ∃ last ∈ objects.getLast?, ∃ e ∈ objects, last.recvUs - arrivalKeepUs ≤ e.recvUs ∧ e.recvUs ≤ tUs

instance (objects : List Played) (mUs tUs : Int) : Decidable (Newer objects mUs tUs) :=
  inferInstanceAs (Decidable (∃ e ∈ objects, _))

instance (objects : List Played) (mUs tUs : Int) : Decidable (Told objects mUs tUs) :=
  inferInstanceAs (Decidable (_ → ∃ last ∈ objects.getLast?, ∃ e ∈ objects, _))

end Played

end AioMoqt.MediaStats
