import ResQBoot.Upgrade.Commands

/-!
# Executing the commands of an upgrade

What the command interpreter makes of the lines: each command acts on the devices, on RAM or on the variables
`fileaddr` and `filesize`, and a line stops at the first command that fails.
-/

namespace ResQBoot.Upgrade

open Flash

structure Session where
  st : State
  file : Nat × Nat

namespace Setup

variable (s : Setup)

def lift (f : State → Bool × State) (e : Session) : Bool × Session := ((f e.st).1, { e with st := (f e.st).2 })

def device (f : World → Bool × World) (st : State) : Bool × State :=
  ((f st.world).1, { st with world := (f st.world).2 })

def poke (addr : Nat) (data : Bytes) (st : State) : Bool × State :=
  (true, { st with world := { st.world with ram := st.world.ram.write addr data } })

def volume {ε : Type} (f : Sysupgrade.Ubi → Except ε Unit × Sysupgrade.Ubi) (st : State) : Bool × State :=
  ((f st.ubi).1.isOk, { st with ubi := (f st.ubi).2 })

def ubiCreate (name : String) (size : Option Nat) (u : Sysupgrade.Ubi) :
    Except Sysupgrade.UbiErr Unit × Sysupgrade.Ubi :=
  match Sysupgrade.ubiCreateVol s.ubiIo u name (size.getD (u.availPebs * u.lebSize)) with
  | .ok u => (.ok (), u)
  | .error e => (.error e, u)

def word : Word → Session → Bool × Session
  | .flash name addr size, e => lift (s.flash name addr size) e
  | .flashFile name, e => lift (s.flash name e.file.1 e.file.2) e
  | .flasherase name, e => lift (s.flasherase name) e
  | .flashread name addr size, e =>
    lift (device fun w =>
      let (out, w) := flashreadPartition s.board s.io name addr size false w
      (out.isSome, w)) e
  | .imxtract _ part, e =>
    match s.imxtract part e.st.world with
    | none => (false, e)
    | some file => (true, { e with file := file })
  | .source _, e => lift (device s.source) e
  | .mw addr, e => lift (poke addr (List.replicate (4 * 0x200) 0)) e
  | .mwByte addr, e => lift (poke addr [0]) e
  | .mmcDev, e => (s.board.emmc.isSome, e)
  | .mmcRead addr start cnt, e => lift (s.run [.mmcRead addr start cnt]) e
  | .mmcErase start cnt, e => lift (s.run [.mmcErase start cnt]) e
  | .mmcWrite addr start cnt, e => lift (s.run [.mmcWrite addr start cnt]) e
  | .sfProbe, e => lift (s.run [.sfProbe]) e
  | .sfErase off len, e => lift (s.run [.sfErase off len]) e
  | .sfWrite addr off len, e => lift (s.run [.sfWrite addr off len]) e
  | .nandDevice _, e => lift (s.run [.nandDevice]) e
  | .nandEraseChip, e => lift (s.run [.nandErase 0 s.board.nandSize]) e
  | .nandWrite addr size, e => lift (s.run [.nandWrite addr 0 size]) e
  | .nandWriteRaw addr pages, e => lift (device (nandWriteRaw s.board s.io addr pages)) e
  | .setenv _ _, e => (true, e)
  | .ubiPart, e => (s.ubiAttached, e)
  | .ubiRemove name, e => lift (volume fun u => Sysupgrade.ubiRemoveVol s.ubiIo u name) e
  | .ubiCreate name size, e => lift (volume (s.ubiCreate name size)) e
  | .ubiWrite addr name size, e =>
    lift (volume fun u => Sysupgrade.ubiVolumeWrite s.ubiIo u name (e.st.world.ram.read addr size)) e
  | .mibibReload _ _ _ _, e => (false, e)
  | .bootm _, e => (false, e)
  | .nothing, e => (true, e)

def line : List Word → Session → Bool × Session
  | [], e => (true, e)
  | c :: t, e =>
    match s.word c e with
    | (true, e) => line t e
    | (false, e) => (false, e)

def sameImage (addr scratch size : Nat) (e : Session) : Bool :=
  e.st.world.ram.read addr size = e.st.world.ram.read scratch size

def answer : Query → Session → Bool × Session
  | .line words, e => s.line words e
  | .readBack name addr scratch size, e =>
    let (ok, e) := s.line [.flashread name scratch size] e
    (ok && sameImage addr scratch size e, e)
  | .canReplace name size, e => (Sysupgrade.ubiVolumeCanReplace e.st.ubi name size, e)

/-! ## Lines of commands on the state -/

section Lines

variable {s} {e : Session}

def Acts (s : Setup) (file : Nat × Nat) (w : Word) (f : State → Bool × State) : Prop :=
  ∀ e : Session, e.file = file → s.word w e = lift f e

lemma line_single {f : State → Bool × State} {w : Word} (acts : s.Acts e.file w f) : s.line [w] e = lift f e := by
  rw [line, acts e rfl, lift]
  cases ok : (f e.st).1 <;> rfl

end Lines

end Setup

namespace Host

variable {h : Host} {e : Session}

lemma run_attempt {q : Query} {rest : Talk} {ok : Bool} {e' : Session} (reply : h.answer q e = (ok, e')) :
    (attempt q rest).run h.answer e = if ok then rest.run h.answer e' else (false, e') := by
  rw [attempt, Dialog.run, reply]
  cases ok <;> rfl

end Host

end ResQBoot.Upgrade
