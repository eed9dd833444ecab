import Zebra.Bgpd.AttrParse

namespace Zebra.Bgpd
open Base Reader AttrHeader Reader List

/-- An access of the parser of the block from `start` to `endp`: inside the octets it
is for, and these inside the block. -/
def WithinBlock (start endp : Nat) (access : Access) : Prop :=
  access.Inside ∧ start ≤ access.lo ∧ access.hi ≤ endp

instance (start endp : Nat) (access : Access) : Decidable (WithinBlock start endp access) :=
  inferInstanceAs (Decidable (_ ∧ _))

/-- The parser adds good accesses only. -/
def Neutral {Value : Type} (start endp : Nat) (reader : AttrReader Value) (data : List Octet)
    (cursor : Cursor Refs) : Prop :=
  Clean (WithinBlock start endp) reader data cursor ↔ Holds (WithinBlock start endp) cursor

/-- The parser adds good accesses only if there is this room. -/
abbrev Needs {Value : Type} (start endp : Nat) (reader : AttrReader Value) (data : List Octet)
    (cursor : Cursor Refs) (Room : Prop) : Prop :=
  Clean (WithinBlock start endp) reader data cursor ↔ Holds (WithinBlock start endp) cursor ∧ Room

/-- The cursor has the limits of the attribute at hand. -/
structure Framed (start endp : Nat) (header : AttrHeader) (cursor : Cursor Refs) : Prop where
  lo : cursor.lo = header.startp
  hi : cursor.hi = header.startp + header.total
  after : start ≤ header.startp
  fits : header.startp + header.total ≤ endp

section Values
variable {start endp : Nat} {header : AttrHeader} {cursor : Cursor Refs} {data : List Octet}
  {Value : Type}

section
variable (framed : Framed start endp header cursor)
include framed

theorem Framed.good (pos count : Nat) (first : header.startp ≤ pos)
    (last : pos + count ≤ header.startp + header.total) :
    WithinBlock start endp ⟨pos, count, cursor.lo, cursor.hi⟩ := by
  refine ⟨⟨?_, ?_⟩, ?_, ?_⟩
  · rw [framed.lo]
    exact first
  · rw [framed.hi]
    exact last
  · rw [framed.lo]
    exact framed.after
  · rw [framed.hi]
    exact framed.fits

theorem Framed.congr {other} (lo : other.lo = cursor.lo) (hi : other.hi = cursor.hi)
    : Framed start endp header other :=
  ⟨lo.trans framed.lo, hi.trans framed.hi, framed.after, framed.fits⟩

theorem Framed.moved (getp : Nat) (accesses : List Access) (refs : Refs) :
    Framed start endp header ⟨getp, cursor.lo, cursor.hi, accesses, refs⟩ :=
  framed.congr rfl rfl

theorem Framed.take_good (count : Nat) (place : header.value ≤ cursor.getp)
    (room : cursor.getp + count ≤ header.value + header.length) :
    WithinBlock start endp ⟨cursor.getp, count, cursor.lo, cursor.hi⟩ := by
  apply framed.good cursor.getp count
  · exact le_trans (Nat.le_add_right ..) place
  · rw [total, add_comm header.length, ← add_assoc]
    exact room

end

theorem notify_neutral (subcode : UpdateError) :
    Neutral start endp (notify subcode : AttrReader Value) data cursor :=
  Iff.rfl

theorem pure_neutral (value : Value) :
    Neutral start endp (pure value : AttrReader Value) data cursor :=
  Iff.rfl

theorem notifyWithData_neutral (framed : Framed start endp header cursor) (subcode : UpdateError) :
    Neutral start endp (notifyWithData subcode header : AttrReader Value) data cursor := by
  have good := framed.good header.startp header.total (Nat.le_refl header.startp)
    (Nat.le_refl (header.startp + header.total))
  simp only [Neutral, Clean, notifyWithData, run_bind, run_peek, run_fail, holds_cons,
    good, true_and]

section
variable {count : Nat} (framed : Framed start endp header cursor)
  (place : header.value ≤ cursor.getp) (room : cursor.getp + count ≤ header.value + header.length)
include framed place room

theorem read_neutral {Read} {first : AttrReader Read} {value} {next : Read → AttrReader Value}
    (ran : first.run data cursor = (.ok value, ((take count : AttrReader _).run data cursor).2))
    (rest : ∀ after, Framed start endp header after → after.getp = cursor.getp + count →
      Neutral start endp (next value) data after) :
    Neutral start endp (first >>= next) data cursor := by
  refine (clean_bind_ok ran).trans ((rest _ ?_ ?_).trans ?_)
  · exact framed.congr rfl rfl
  · rfl
  · simp only [run_take, holds_cons, framed.take_good count place room, true_and]
    exact holds_congr rfl

end

theorem step_neutral {Middle : Type} {step : AttrReader Middle} {next : Middle → AttrReader Value}
    {value : Middle} {after} (succeeds : step.run data cursor = (.ok value, after))
    (silent : after.accesses = cursor.accesses)
    (rest : Neutral start endp (next value) data after) :
    Neutral start endp (step >>= next) data cursor :=
  (clean_bind_ok succeeds).trans (rest.trans (holds_congr silent))

section
variable (framed : Framed start endp header cursor) (place : cursor.getp = header.value)
  (attr : Attr)
include framed place attr

theorem bgpAttrOrigin_neutral : Neutral start endp (bgpAttrOrigin header attr) data cursor := by
  unfold bgpAttrOrigin
  split
  · exact notifyWithData_neutral framed _
  · split
    · exact notifyWithData_neutral framed _
    · refine read_neutral framed (by omega) (by omega) (run_number _) fun after afterFramed _ => ?_
      split
      · exact notifyWithData_neutral afterFramed _
      · exact pure_neutral _

theorem bgpAttrNexthop_neutral : Neutral start endp (bgpAttrNexthop header attr) data cursor := by
  unfold bgpAttrNexthop
  split
  · exact notifyWithData_neutral framed _
  · split
    · exact notifyWithData_neutral framed _
    · exact read_neutral framed (by omega) (by omega) (run_number _) fun _ _ _ => pure_neutral _

theorem bgpAttrMed_neutral : Neutral start endp (bgpAttrMed header attr) data cursor := by
  unfold bgpAttrMed
  split
  · exact notifyWithData_neutral framed _
  · exact read_neutral framed (by omega) (by omega) (run_number _) fun _ _ _ => pure_neutral _

end

variable (bgp : Bgp) (peer : Peer)

theorem bgpAttrLocalPref_neutral (framed : Framed start endp header cursor)
    (place : cursor.getp = header.value)
    (attr : Attr) : Neutral start endp (bgpAttrLocalPref bgp peer header attr) data cursor := by
  unfold bgpAttrLocalPref
  split
  · exact step_neutral (run_forward _) rfl (pure_neutral _)
  · split
    · exact read_neutral framed (by omega) (by omega) (run_number _) fun _ _ _ => pure_neutral _
    · exact pure_neutral _

theorem bgpAttrAtomic_neutral (attr : Attr) :
    Neutral start endp (bgpAttrAtomic header attr) data cursor := by
  unfold bgpAttrAtomic
  split
  · exact notify_neutral _
  · exact pure_neutral _

theorem bgpAttrAggregator_neutral (framed : Framed start endp header cursor)
    (place : cursor.getp = header.value)
    (attr : Attr) : Neutral start endp (bgpAttrAggregator header attr) data cursor := by
  unfold bgpAttrAggregator
  split
  · exact notify_neutral _
  · refine read_neutral framed (by omega) (by omega)
      (run_number _) fun after afterFramed moved => ?_
    exact read_neutral afterFramed (by omega) (by omega) (run_number _) fun _ _ _ => pure_neutral _

theorem objectAttr_neutral {Object : Type} (width : Nat) (parse : List Octet → Option Object)
    (ref : Object → Ref)
    (store : Option Object → Attr) (framed : Framed start endp header cursor)
    (place : cursor.getp = header.value) :
    Neutral start endp (objectAttr header width parse ref store) data cursor := by
  unfold objectAttr
  split
  · exact pure_neutral _
  · split
    · exact step_neutral (run_forward _) rfl (pure_neutral _)
    · refine read_neutral framed (by omega) (by omega) (run_take _) fun after _ _ => ?_
      split
      · exact pure_neutral _
      · exact step_neutral (run_change _) rfl (pure_neutral _)

section
variable (framed : Framed start endp header cursor)
include framed

theorem bgpAttrOriginatorId_neutral (place : cursor.getp = header.value) (attr : Attr)
    : Neutral start endp (bgpAttrOriginatorId header attr) data cursor := by
  unfold bgpAttrOriginatorId
  split
  · exact notify_neutral _
  · exact read_neutral framed (by omega) (by omega) (run_number _) fun _ _ _ => pure_neutral _

theorem bgpAttrClusterList_neutral (place : cursor.getp = header.value) (attr : Attr)
    : Neutral start endp (bgpAttrClusterList header attr) data cursor := by
  unfold bgpAttrClusterList
  split
  · exact notify_neutral _
  · refine read_neutral framed (by omega) (by omega) (run_take _) fun after _ _ => ?_
    exact step_neutral (run_change _) rfl (pure_neutral _)

theorem bgpAttrUnknown_neutral (attr : Attr) :
    Neutral start endp (bgpAttrUnknown header attr) data cursor := by
  refine step_neutral (run_forward _) rfl ?_
  have moved : Framed start endp header { cursor with getp := cursor.getp + header.length } :=
    framed.congr rfl rfl
  split
  · exact notifyWithData_neutral moved _
  · split
    · exact pure_neutral _
    · have good := moved.good header.startp header.total (Nat.le_refl header.startp)
        (Nat.le_refl (header.startp + header.total))
      simp only [Neutral, Clean, run_bind, run_peek, run_pure, holds_cons, good, true_and]

end

theorem localAsPrepend_run (data : List Octet) (cursor : Cursor Refs) (peer : Peer)
    (aspath : Aspath) :
    ∃ result refs, (localAsPrepend peer aspath).run data cursor =
      (.ok result, { cursor with world := refs }) := by
  unfold localAsPrepend
  split
  · exact ⟨_, _, rfl⟩
  · exact ⟨aspath, cursor.world, rfl⟩

/-- Two octets of a sequence that `aspath_parse` accepts. -/
def Headless (stored : Aspath → Bool) (octets : List Octet) : Prop :=
  ∃ length, octets = [asSequence, length] ∧ (length = 0 ∨ stored ⟨octets⟩ = true)

/-- The first AS of a sequence without any lies behind the attribute; a stored path may also say
  that it has some. -/
def FirstasBehind (stored : Aspath → Bool) (data : List Octet) (header : AttrHeader) : Prop :=
  wellKnown header.flag = true ∧ bgp.noEnforceFirstAs = false ∧ peerSort bgp peer = .ebgp ∧
    header.length = 2 ∧ Headless stored (slice data header.value 2)

theorem aspathParse_data {stored octets aspath} (parsed : aspathParse stored octets = some aspath) :
    aspath.data = octets ∧ octets.length % 2 = 0 := by
  unfold aspathParse at parsed
  split at parsed
  · cases parsed
  · split at parsed
    · cases parsed
      exact ⟨rfl, by omega⟩
    · split at parsed
      · cases parsed
        exact ⟨rfl, by omega⟩
      · cases parsed

theorem aspathParse_pair {stored length} :
    (aspathParse stored [asSequence, length]).isSome ↔
    length = 0 ∨ stored ⟨[asSequence, length]⟩ = true := by
  have counts : (aspathMakeStrCount [asSequence, length]).isSome = true ↔ length = 0 := by
    constructor
    · intro counted
      simp only [aspathMakeStrCount, length_cons, length_nil, countLoop, segmentAt] at counted
      split at counted
      · cases counted
      · rename_i segment rest whole
        split at whole
        · cases whole
        · rename_i room
          apply BitVec.eq_of_toNat_eq
          simpa using room
    · rintro rfl
      decide
  unfold aspathParse
  rw [if_neg (by simp), ← counts]
  split
  · rename_i held
    exact iff_of_true rfl (.inr held)
  · rename_i new
    rw [or_iff_left new]
    split
    · rename_i counted
      exact iff_of_true rfl counted
    · rename_i wrong
      exact iff_of_false (by simp) wrong

theorem Framed.behind (framed : Framed start endp header cursor) (pos count : Nat)
    (exceeds : header.startp + header.total < pos + count) :
    ¬ WithinBlock start endp ⟨pos, count, cursor.lo, cursor.hi⟩ := by
  intro good
  have inside := good.1.2
  simp only [framed.hi] at inside
  omega

theorem aspathFirstasCheck_other {aspath type rest}
    (octets : aspath.data = type :: rest) (other : type ≠ asSequence) (asno : As) :
    aspathFirstasCheck aspath asno = false := by
  unfold aspathFirstasCheck
  rw [octets]
  split
  · rename_i same
    cases same
    rw [decide_eq_false other, Bool.false_and]
  · rfl

/-- What the first AS check reads: one octet of a path that is not empty, and the
first AS number of a sequence. -/
theorem firstasCheck_clean (peer : Peer) (framed : Framed start endp header cursor)
    (place : cursor.getp = header.value) {stored aspath}
    (parsed : aspathParse stored (slice data cursor.getp header.length) = some aspath) :
    Needs start endp (firstasCheck peer aspath) data cursor
      ¬ (header.length = 2 ∧ Headless stored (slice data header.value 2)) := by
  obtain ⟨same, even⟩ := aspathParse_data parsed
  rw [length_slice] at even
  have whole : aspath.data.length = header.length := by rw [same, length_slice]
  have total : header.startp + header.total = header.value + header.length := by
    rw [total, value]
    omega
  cases path : aspath.data with
  | nil =>
    rw [path, length_nil] at whole
    simp only [Needs, Clean, firstasCheck, path, run_bind, run_getp, run_pure]
    exact (and_iff_left fun short => by omega).symm
  | cons type rest =>
    rw [path, length_cons] at whole
    have one := framed.take_good 1 (by omega) (by omega)
    by_cases sequence : type = asSequence
    · simp only [Needs, Clean, firstasCheck, path, run_bind, run_getp, run_peek, sequence,
        ↓reduceIte, run_pure, holds_cons, one, true_and]
      by_cases short : header.length = 2
      · have second : Headless stored (slice data header.value 2) := by
          rw [← place, ← short, ← same, path, sequence]
          obtain ⟨length, rfl⟩ := length_eq_one_iff.mp (show rest.length = 1 by omega)
          rw [← same, path, sequence] at parsed
          exact ⟨length, rfl, aspathParse_pair.mp (Option.isSome_iff_exists.mpr ⟨_, parsed⟩)⟩
        have behind := framed.behind (cursor.getp + 2) 2 (by omega)
        simp only [behind, short, second, false_and, true_and, not_true_eq_false, and_false]
      · have two := framed.good (cursor.getp + 2) 2
          (by rw [place, value]; omega) (by omega)
        simp only [two, short, true_and, false_and, not_false_eq_true, and_true]
    · have other : ¬ Headless stored (slice data header.value 2) ∨ header.length ≠ 2 := by
        by_cases short : header.length = 2
        · left
          rw [← place, ← short, ← same, path]
          rintro ⟨length, equal, -⟩
          exact sequence (cons.inj equal).1
        · exact Or.inr short
      simp only [Needs, Clean, firstasCheck, path, run_bind, run_getp, run_peek, sequence,
        ↓reduceIte, run_pure, holds_cons, one, true_and]
      refine (holds_congr rfl).trans (and_iff_left ?_).symm
      exact fun short => other.elim (fun apart => apart short.2) fun apart => apart short.1

theorem aspathStore_silent (peer : Peer) (header : AttrHeader) (attr : Attr) (aspath : Aspath)
    (first : Bool) (data : List Octet) (cursor : Cursor Refs) :
    ((aspathStore peer header attr aspath first).run data cursor).2.accesses = cursor.accesses := by
  unfold aspathStore
  split
  · rfl
  · obtain ⟨result, refs, prepended⟩ := localAsPrepend_run data cursor peer aspath
    rw [run_bind_ok prepended]
    rfl

theorem run_firstasCheck (peer : Peer) (aspath : Aspath) (data : List Octet)
    (cursor : Cursor Refs) :
    ∃ seen, (firstasCheck peer aspath).run data cursor =
    (.ok (aspathFirstasCheck aspath peer.as), { cursor with accesses := seen }) := by
  unfold firstasCheck
  rw [run_bind_ok run_getp]
  cases octets : aspath.data with
  | nil =>
    refine ⟨cursor.accesses, ?_⟩
    rw [aspathFirstasCheck, octets]
    rfl
  | cons type rest =>
    rw [run_bind_ok (run_peek ..)]
    split
    · exact ⟨_, run_bind_ok (run_peek ..)⟩
    · rename_i other
      rw [aspathFirstasCheck_other octets other]
      exact ⟨_, run_pure _⟩

/-- Whether the first AS number of a path is good enough. -/
def firstasAccepts (bgp : Bgp) (peer : Peer) (aspath : Aspath) : Bool :=
  bgp.noEnforceFirstAs || peerSort bgp peer ≠ .ebgp || aspathFirstasCheck aspath peer.as

theorem run_firstasEnforce (bgp : Bgp) (peer : Peer) (aspath : Aspath) (data : List Octet)
    (cursor : Cursor Refs) :
    ∃ seen, (firstasEnforce bgp peer aspath).run data cursor =
    (.ok (firstasAccepts bgp peer aspath), { cursor with accesses := seen }) := by
  unfold firstasEnforce firstasAccepts
  split
  · rename_i enforced
    rw [enforced.1, decide_eq_false (not_not.mpr enforced.2)]
    exact run_firstasCheck peer aspath data cursor
  · rename_i lenient
    refine ⟨cursor.accesses, ?_⟩
    have accepts : (bgp.noEnforceFirstAs || decide (peerSort bgp peer ≠ .ebgp)) = true := by
      rw [not_and_or] at lenient
      simpa using lenient
    rw [accepts]
    rfl

variable (afi : BitVec 16)

theorem nlriSanityLoop_run (stop fuel pnt : Nat) (data : List Octet) (cursor : Cursor Refs) :
    ∃ result accesses, (nlriSanityLoop afi stop fuel pnt).run data cursor =
      (result, { cursor with accesses := accesses }) := by
  induction fuel generalizing pnt cursor with
  | zero => exact ⟨_, _, rfl⟩
  | succ fuel ih =>
    simp only [nlriSanityLoop]
    split
    · rw [run_bind_ok (run_peek pnt 1)]
      split
      · exact ⟨_, _, rfl⟩
      · split
        · exact ⟨_, _, rfl⟩
        · exact ih _ _
    · exact ⟨_, _, rfl⟩

theorem mpNlriCheck_run (safi : Octet) (pnt length : Nat) (data : List Octet)
    (cursor : Cursor Refs) : ∃ result accesses, (mpNlriCheck afi safi pnt length).run data cursor =
      (result, { cursor with accesses := accesses }) := by
  unfold mpNlriCheck
  split
  · exact nlriSanityLoop_run ..
  · exact ⟨_, _, rfl⟩

theorem nlriSanityLoop_holds (stop fuel pnt : Nat)
    (clean : Clean (WithinBlock start endp) (nlriSanityLoop afi stop fuel pnt) data cursor) :
    Holds (WithinBlock start endp) cursor := by
  induction fuel generalizing pnt cursor with
  | zero => exact clean
  | succ fuel ih =>
    simp only [nlriSanityLoop] at clean
    split at clean
    · rw [clean_bind_ok (run_peek pnt 1)] at clean
      have looked : Holds (WithinBlock start endp)
          { cursor with accesses := ⟨pnt, 1, cursor.lo, cursor.hi⟩ :: cursor.accesses } := by
        split at clean
        · exact clean
        · split at clean
          · exact clean
          · exact ih _ clean
      exact (holds_cons .. |>.mp looked).2
    · exact clean

section
variable (framed : Framed start endp header cursor)
include framed

theorem firstasEnforce_clean (place : cursor.getp = header.value)
    (known : wellKnown header.flag = true)
    {stored aspath}
    (parsed : aspathParse stored (slice data cursor.getp header.length) = some aspath) :
    Needs start endp
      (firstasEnforce bgp peer aspath) data cursor ¬ FirstasBehind bgp peer stored data header := by
  unfold firstasEnforce
  split
  · rename_i enforced
    refine (firstasCheck_clean peer framed place parsed).trans
      (and_congr_right fun _ => not_congr ⟨fun short => ?_, fun behind => behind.2.2.2⟩)
    exact ⟨known, enforced.1, enforced.2, short⟩
  · rename_i lenient
    refine (pure_neutral _).trans (and_iff_left fun behind => ?_).symm
    exact lenient ⟨behind.2.1, behind.2.2.1⟩

theorem bgpAttrAspath_clean (place : cursor.getp = header.value)
    (attr : Attr) : Needs start endp (bgpAttrAspath bgp peer header attr) data cursor
      ¬ FirstasBehind bgp peer cursor.world.stored data header := by
  have good := framed.take_good header.length (by omega) (by omega)
  unfold bgpAttrAspath
  split
  · rename_i unknown
    refine (notifyWithData_neutral framed _).trans (and_iff_left fun behind => ?_).symm
    simp [behind.1] at unknown
  · rename_i known
    rw [Needs, clean_bind_ok run_getp, clean_bind_ok (run_peek _ _), clean_bind_ok run_look]
    split
    · rename_i malformed
      refine (notify_neutral _).trans ?_
      simp only [holds_cons, good, true_and]
      refine (holds_congr rfl).trans (and_iff_left fun behind => ?_).symm
      obtain ⟨length, octets, accepted⟩ := behind.2.2.2.2
      rw [octets] at accepted
      rw [place, behind.2.2.2.1, octets] at malformed
      have parses := aspathParse_pair.mpr accepted
      rw [malformed] at parses
      cases parses
    · rename_i aspath parsed
      obtain ⟨seen, checked⟩ := run_firstasEnforce bgp peer aspath data { cursor with
          accesses := ⟨cursor.getp, header.length, cursor.lo, cursor.hi⟩ :: cursor.accesses
          world := cursor.world.add (.aspath aspath) 1 }
      have enforced := firstasEnforce_clean bgp peer (framed.moved cursor.getp
        (⟨cursor.getp, header.length, cursor.lo, cursor.hi⟩ :: cursor.accesses)
        (cursor.world.add (.aspath aspath) 1)) place (by simpa using known) parsed
      refine (clean_bind_ok checked).trans ?_
      refine (holds_congr (aspathStore_silent ..)).trans ?_
      rw [Needs, Clean, checked] at enforced
      refine enforced.trans ?_
      simp only [holds_cons, good, true_and]
      exact and_congr_left fun _ => holds_congr rfl

theorem number_clean {count} {next : BitVec (8 * count) → AttrReader Value} {Room : Prop}
    (place : header.value ≤ cursor.getp)
    (room : Room → cursor.getp + count ≤ header.value + header.length)
    (rest : ∀ after, Framed start endp header after → after.getp = cursor.getp + count →
      (Holds (WithinBlock start endp) after → cursor.getp + count ≤ header.startp + header.total) →
      Needs start endp (next (field data cursor.getp count)) data after Room) :
    Needs start endp (number count >>= next) data cursor Room := by
  refine (clean_bind_ok (run_number count)).trans
    ((rest _ (framed.moved ..) rfl fun holds => ?_).trans ?_)
  · exact framed.hi ▸ ((holds_cons ..).mp holds).1.1.2
  · refine and_congr_left fun fits => ?_
    simp only [holds_cons, framed.take_good count place (room fits), true_and]
    exact holds_congr rfl

theorem nlriSanityLoop_neutral (afi : BitVec 16) {stop}
    (room : stop ≤ header.startp + header.total) (fuel : Nat) {pnt} (place : header.startp ≤ pnt) :
    Neutral start endp (nlriSanityLoop afi stop fuel pnt) data cursor := by
  induction fuel generalizing pnt cursor with
  | zero => exact pure_neutral _
  | succ fuel ih =>
    simp only [nlriSanityLoop]
    split
    · have good := framed.good pnt 1 place (by omega)
      refine (clean_bind_ok (run_peek pnt 1)).trans ?_
      have looked : Holds (WithinBlock start endp)
          { cursor with accesses := ⟨pnt, 1, cursor.lo, cursor.hi⟩ :: cursor.accesses } ↔
          Holds (WithinBlock start endp) cursor := by
        simp only [holds_cons, good, true_and]
      split
      · exact looked
      · split
        · exact looked
        · exact (ih (framed.moved _ _ _) (by omega)).trans looked
    · exact pure_neutral _

theorem takeNlri_inside (afi : BitVec 16) (safi : Octet)
    (place : header.value ≤ cursor.getp) (room : cursor.getp ≤ header.value + header.length)
    (small : header.length < 2 ^ 16) :
    Neutral start endp (takeNlri (header.value + header.length) afi safi) data cursor := by
  have length : (((header.value + header.length : Nat) : Int) - cursor.getp) % 2 ^ 16 =
      (header.value + header.length - cursor.getp : Nat) := by omega
  have total : header.startp + header.total = header.value + header.length := by
    rw [total, value]
    omega
  have start_le : header.startp ≤ cursor.getp := le_trans (Nat.le_add_right ..) place
  have checked : Neutral start endp
      (mpNlriCheck afi safi cursor.getp (header.value + header.length - cursor.getp)) data
        cursor := by
    unfold mpNlriCheck
    split
    · exact nlriSanityLoop_neutral framed afi (by omega) _ start_le
    · exact pure_neutral _
  refine (clean_bind_ok run_getp).trans ?_
  simp only [length, Int.toNat_natCast]
  obtain ⟨result, accesses, ran⟩ :=
    mpNlriCheck_run afi safi cursor.getp (header.value + header.length - cursor.getp) data cursor
  rw [Neutral, Clean, ran] at checked
  cases result with
  | error failure =>
    rw [Clean, run_bind_error ran]
    exact checked
  | ok value =>
    have good := (framed.moved cursor.getp accesses cursor.world).good cursor.getp
      (header.value + header.length - cursor.getp) start_le (by omega)
    refine (clean_bind_ok ran).trans ((clean_bind_ok (run_peek ..)).trans ?_)
    refine Iff.trans ?_ checked
    simp only [Clean, run_bind, run_forward, run_pure, holds_cons, good, true_and]
    exact holds_congr rfl

/-- A check that starts behind the value reads there. -/
theorem nlriSanityLoop_behind (afi : BitVec 16) {stop fuel pnt}
    (more : pnt < stop) (behind : header.startp + header.total < pnt + 1) :
    ¬ Clean (WithinBlock start endp) (nlriSanityLoop afi stop (fuel + 1) pnt) data cursor := by
  intro clean
  rw [nlriSanityLoop, if_pos more, clean_bind_ok (run_peek pnt 1)] at clean
  dsimp only at clean
  have looked : Holds (WithinBlock start endp)
      { cursor with accesses := ⟨pnt, 1, cursor.lo, cursor.hi⟩ :: cursor.accesses } := by
    split at clean
    · exact clean
    · split at clean
      · exact clean
      · exact nlriSanityLoop_holds afi _ _ _ clean
  exact framed.behind pnt 1 behind ((holds_cons ..).mp looked).1

end

/-- The end of the SNPAs that start at `pos`. -/
def snpaEnd (data : List Octet) : Nat → Nat → Nat
  | 0, pos => pos
  | count + 1, pos => snpaEnd data count (pos + 1 + ((field data pos 1).toNat + 1) / 2)

theorem le_snpaEnd (data : List Octet) (count pos : Nat) : pos ≤ snpaEnd data count pos := by
  induction count generalizing pos with
  | zero => exact Nat.le_refl pos
  | succ count ih => exact le_trans (by omega) (ih _)

/-- A pointer behind the value gives a length that is far too large. -/
theorem takeNlri_behind (data : List Octet) (framed : Framed start endp header cursor)
    (afi : BitVec 16) (safi : Octet) (behind : header.value + header.length < cursor.getp)
    (near : cursor.getp < header.value + header.length + 2 ^ 16) :
    ¬ Clean (WithinBlock start endp)
    (takeNlri (header.value + header.length) afi safi) data cursor := by
  have total : header.startp + header.total = header.value + header.length := by
    rw [total, value]
    omega
  obtain ⟨fuel, length⟩ : ∃ fuel,
      ((((header.value + header.length : Nat) : Int) - cursor.getp) % 2 ^ 16).toNat = fuel + 1 :=
    ⟨_, (Nat.succ_pred (by omega)).symm⟩
  intro clean
  unfold takeNlri at clean
  rw [clean_bind_ok run_getp] at clean
  simp only [length] at clean
  obtain ⟨result, accesses, ran⟩ := mpNlriCheck_run afi safi cursor.getp (fuel + 1) data cursor
  cases result with
  | error failure =>
    have stopped : Clean (WithinBlock start endp)
        (mpNlriCheck afi safi cursor.getp (fuel + 1)) data cursor := by
      rw [Clean, run_bind_error ran] at clean
      rwa [Clean, ran]
    unfold mpNlriCheck at stopped ran
    split at stopped
    · exact nlriSanityLoop_behind framed afi (by omega) (by omega) stopped
    · rename_i unchecked
      rw [if_neg unchecked] at ran
      cases ran
  | ok value =>
    rw [clean_bind_ok ran, clean_bind_ok (run_peek ..)] at clean
    simp only [Clean, run_bind, run_forward, run_pure, holds_cons] at clean
    exact framed.behind cursor.getp (fuel + 1) (by omega) clean.1

theorem skipSnpas_clean {next : Unit → AttrReader Value} {Room : Prop} (count : Nat)
    (framed : Framed start endp header cursor) (place : header.value ≤ cursor.getp)
    (room : Room → snpaEnd data count cursor.getp ≤ header.value + header.length)
    (rest : ∀ after, Framed start endp header after → after.getp = snpaEnd data count cursor.getp →
      Needs start endp (next ()) data after Room) :
    Needs start endp (skipSnpas count >>= next) data cursor Room := by
  induction count generalizing cursor with
  | zero => exact rest cursor framed rfl
  | succ count ih =>
    have below :=
      le_snpaEnd data count (cursor.getp + 1 + ((field data cursor.getp 1).toNat + 1) / 2)
    rw [skipSnpas, bind_assoc]
    refine number_clean framed place (fun fits => ?_) fun after afterFramed moved _ => ?_
    · have whole := room fits
      simp only [snpaEnd] at whole
      omega
    · rw [snpaEnd, ← moved] at room rest
      refine (ih (afterFramed.moved ..) ?_ room rest).trans
        (and_congr_left fun _ => holds_congr rfl)
      dsimp only
      omega

theorem takeNlri_clean (framed : Framed start endp header cursor) (afi : BitVec 16) (safi : Octet)
    (place : header.value ≤ cursor.getp) (small : header.length < 2 ^ 16)
    (near : cursor.getp < header.value + header.length + 2 ^ 16) :
    Needs start endp (takeNlri (header.value + header.length) afi safi) data cursor
      (cursor.getp ≤ header.value + header.length) := by
  by_cases room : cursor.getp ≤ header.value + header.length
  · exact (takeNlri_inside framed afi safi place room small).trans (and_iff_left room).symm
  · have behind := takeNlri_behind data framed afi safi (by omega) near
    exact iff_of_false behind fun after => room after.2

/-- The octets that an MP_UNREACH_NLRI value has to have. -/
theorem bgpMpUnreachParse_clean (framed : Framed start endp header cursor)
    (place : cursor.getp = header.value)
    (small : header.length < 2 ^ 16) :
    Needs start endp (bgpMpUnreachParse header) data cursor (3 ≤ header.length) := by
  unfold bgpMpUnreachParse
  rw [Needs, clean_bind_ok run_getp, place]
  refine number_clean framed (by omega) (by omega) fun second secondFramed _ _ => ?_
  refine number_clean secondFramed (by omega) (by omega) fun third thirdFramed _ _ => ?_
  refine (takeNlri_clean thirdFramed _ _ ?_ small ?_).trans (and_congr_right fun _ => ?_)
  · omega
  · omega
  · omega

theorem snpaEnd_le (data : List Octet) (count pos : Nat) :
    snpaEnd data count pos ≤ pos + 129 * count := by
  induction count generalizing pos with
  | zero => exact Nat.le_refl pos
  | succ count ih =>
    exact le_trans (ih _) (by omega)

/-- The next hop lengths that MP_REACH_NLRI may have. -/
def nexthopKnown (nexthopLen : Octet) : Prop :=
  nexthopLen = 4 ∨ nexthopLen = 12 ∨ nexthopLen = 16 ∨ nexthopLen = 32

instance (nexthopLen : Octet) : Decidable (nexthopKnown nexthopLen) :=
  inferInstanceAs (Decidable (_ ∨ _))

theorem readNexthop_clean (attr : Attr) {nexthopLen} (known : nexthopKnown nexthopLen)
    {next : Attr → AttrReader Value} {Room : Prop} (framed : Framed start endp header cursor)
    (place : header.value ≤ cursor.getp)
    (room : Room → cursor.getp + nexthopLen.toNat ≤ header.value + header.length)
    (rest : ∀ attr after, Framed start endp header after →
      after.getp = cursor.getp + nexthopLen.toNat →
      Needs start endp (next attr) data after Room) : Needs start endp
      (readNexthop attr nexthopLen >>= next) data cursor Room := by
  rcases known with rfl | rfl | rfl | rfl
  · simp only [readNexthop, ↓reduceIte, bind_assoc, pure_bind]
    exact number_clean framed place room fun after afterFramed moved _ => rest _ _ afterFramed moved
  · change Room → cursor.getp + 12 ≤ header.value + header.length at room
    simp only [readNexthop, show (12 : Octet) ≠ 4 by decide, ↓reduceIte, bind_assoc, pure_bind]
    refine number_clean framed place (fun fits => by have := room fits; omega)
      fun second secondFramed moved _ => ?_
    refine number_clean secondFramed (by omega)
      (fun fits => by have := room fits; omega) fun third thirdFramed again _ => ?_
    refine number_clean thirdFramed (by omega)
      (fun fits => by have := room fits; omega) fun after afterFramed last _ => ?_
    exact rest _ _ afterFramed (by rw [last, again, moved]; rfl)
  · simp only [readNexthop, show (16 : Octet) ≠ 4 by decide, show (16 : Octet) ≠ 12 by
      decide, ↓reduceIte,
      bind_assoc, pure_bind]
    exact number_clean framed place room fun after afterFramed moved _ => rest _ _ afterFramed moved
  · change Room → cursor.getp + 32 ≤ header.value + header.length at room
    simp only [readNexthop, show (32 : Octet) ≠ 4 by decide, show (32 : Octet) ≠ 12 by decide,
      show (32 : Octet) ≠ 16 by decide, ↓reduceIte, bind_assoc, pure_bind]
    refine number_clean framed place (fun fits => by have := room fits; omega)
      fun second secondFramed moved _ => ?_
    refine number_clean secondFramed (by omega)
      (fun fits => by have := room fits; omega) fun after afterFramed last _ => ?_
    exact rest _ _ afterFramed (by rw [last, moved]; rfl)

theorem readNexthop_unknown (attr : Attr) {nexthopLen} (unknown : ¬ nexthopKnown nexthopLen) :
    readNexthop attr nexthopLen = fail { subcode := none } := by
  simp only [nexthopKnown, not_or] at unknown
  simp only [readNexthop, unknown, ↓reduceIte]

/-- The end of what an MP_REACH_NLRI value says it has before its NLRI. -/
def mpReachEnd (data : List Octet) (value : Nat) : Nat :=
  let nexthopLen := field data (value + 3) 1
  if nexthopKnown nexthopLen then
    snpaEnd data (field data (value + 4 + nexthopLen.toNat) 1).toNat
      (value + 4 + nexthopLen.toNat + 1)
  else value + 4

theorem le_mpReachEnd (data : List Octet) (value : Nat) : value + 4 ≤ mpReachEnd data value := by
  unfold mpReachEnd
  dsimp only
  split
  · exact le_trans (by omega) (le_snpaEnd ..)
  · exact le_rfl

theorem mpReachTail_clean (framed : Framed start endp header cursor)
    (place : header.value ≤ cursor.getp)
    (near : cursor.getp ≤ header.value + 36) (small : header.length < 2 ^ 16) (afi : BitVec 16)
    (safi : Octet) (result : Nlri → Value) :
    Needs start endp (number 1 >>= fun snpaNum => skipSnpas snpaNum.toNat >>= fun _ =>
        takeNlri (header.value + header.length) afi safi >>= fun nlri => pure (result nlri))
        data cursor
      (snpaEnd data (field data cursor.getp 1).toNat (cursor.getp + 1) ≤
        header.value + header.length) := by
  have least := le_snpaEnd data (field data cursor.getp 1).toNat (cursor.getp + 1)
  have most := snpaEnd_le data (field data cursor.getp 1).toNat (cursor.getp + 1)
  refine number_clean framed place (fun fits => by omega) fun second secondFramed moved _ => ?_
  rw [← moved] at least most ⊢
  refine skipSnpas_clean _ secondFramed (by omega) id fun after afterFramed skipped => ?_
  rw [← skipped]
  exact (clean_map ..).trans (takeNlri_clean afterFramed afi safi (by omega) small (by omega))

variable (framed : Framed start endp header cursor) (place : cursor.getp = header.value)
  (small : header.length < 2 ^ 16)
include framed place small

theorem bgpMpReachParse_clean (attr : Attr) :
    Needs start endp (bgpMpReachParse header attr) data cursor
    (mpReachEnd data header.value ≤ header.value + header.length) := by
  have least := le_mpReachEnd data header.value
  unfold bgpMpReachParse
  rw [Needs, clean_bind_ok run_getp, place]
  refine number_clean framed (by omega) (fun fits => by omega) fun second secondFramed moved _ => ?_
  refine number_clean secondFramed (by omega)
    (fun fits => by omega) fun third thirdFramed again _ => ?_
  refine number_clean thirdFramed (by omega)
    (fun fits => by omega) fun after afterFramed last inside => ?_
  have position : third.getp = header.value + 3 := by omega
  rw [position] at last ⊢
  by_cases known : nexthopKnown (field data (header.value + 3) 1)
  · have whole : mpReachEnd data header.value = snpaEnd data
        (field data (header.value + 4 + (field data (header.value + 3) 1).toNat) 1).toNat
        (header.value + 4 + (field data (header.value + 3) 1).toNat + 1) := if_pos known
    have below := le_snpaEnd data
      (field data (header.value + 4 + (field data (header.value + 3) 1).toNat) 1).toNat
      (header.value + 4 + (field data (header.value + 3) 1).toNat + 1)
    have widest : (field data (header.value + 3) 1).toNat ≤ 32 := by
      rcases known with len | len | len | len <;> rw [len] <;> decide
    rw [whole]
    refine readNexthop_clean attr known afterFramed (by omega)
      (fun fits => by omega) fun attr tail tailFramed moved => ?_
    have reached :
      tail.getp = header.value + 4 + (field data (header.value + 3) 1).toNat := by omega
    rw [← reached]
    exact mpReachTail_clean tailFramed (by omega) (by omega) small ..
  · have whole : mpReachEnd data header.value = header.value + 4 := if_neg known
    rw [readNexthop_unknown attr known, whole]
    refine (and_iff_left_of_imp fun holds => ?_).symm
    -- the octet with the next hop length has been read, so it lies inside the value
    have read := inside holds
    simp only [total, value] at position read ⊢
    omega

/-- What a value needs for its parser to stay inside it. -/
def ValueWhole (stored : Aspath → Bool) (data : List Octet) (header : AttrHeader) : Prop :=
  match AttrType.ofCode header.type with
  | some .asPath => ¬ FirstasBehind bgp peer stored data header
  | some .mpReachNlri => mpReachEnd data header.value ≤ header.value + header.length
  | some .mpUnreachNlri => 3 ≤ header.length
  | _ => True

theorem parseValue_clean (parsed : Parsed) :
    Needs start endp (parseValue bgp peer header parsed) data cursor
      (ValueWhole bgp peer cursor.world.stored data header) := by
  unfold parseValue ValueWhole
  cases AttrType.ofCode header.type with
  | none =>
    exact (clean_map ..).trans ((bgpAttrUnknown_neutral framed _).trans (and_iff_left trivial).symm)
  | some type =>
    cases type with
    | origin =>
      exact (clean_map ..).trans
        ((bgpAttrOrigin_neutral framed place _).trans (and_iff_left trivial).symm)
    | asPath => exact (clean_map ..).trans (bgpAttrAspath_clean bgp peer framed place _)
    | nextHop =>
      exact (clean_map ..).trans
        ((bgpAttrNexthop_neutral framed place _).trans (and_iff_left trivial).symm)
    | multiExitDisc =>
      exact (clean_map ..).trans
        ((bgpAttrMed_neutral framed place _).trans (and_iff_left trivial).symm)
    | localPref =>
      exact (clean_map ..).trans
        ((bgpAttrLocalPref_neutral bgp peer framed place _).trans (and_iff_left trivial).symm)
    | atomicAggregate =>
      exact (clean_map ..).trans ((bgpAttrAtomic_neutral _).trans (and_iff_left trivial).symm)
    | aggregator =>
      exact (clean_map ..).trans
        ((bgpAttrAggregator_neutral framed place _).trans (and_iff_left trivial).symm)
    | communities =>
      exact (clean_map ..).trans
        ((objectAttr_neutral _ _ _ _ framed place).trans (and_iff_left trivial).symm)
    | originatorId =>
      exact (clean_map ..).trans
        ((bgpAttrOriginatorId_neutral framed place _).trans (and_iff_left trivial).symm)
    | clusterList =>
      exact (clean_map ..).trans
        ((bgpAttrClusterList_neutral framed place _).trans (and_iff_left trivial).symm)
    | mpReachNlri => exact (clean_map ..).trans (bgpMpReachParse_clean framed place small _)
    | mpUnreachNlri => exact (clean_map ..).trans (bgpMpUnreachParse_clean framed place small)
    | extCommunities =>
      exact (clean_map ..).trans
        ((objectAttr_neutral _ _ _ _ framed place).trans (and_iff_left trivial).symm)

end Values
end Zebra.Bgpd
