import Depot.Registry.Basic

/-! # Faulty registries

A registry behind a connection that breaks at chosen calls: such a call answers its fault and
reaches nothing. A pull may also be cut off after some frames.
-/

namespace Depot

structure Faults where
  openUpload : Option RegistryError := none
  /-- On each upload, the send with this number fails. -/
  send : Option (Nat × RegistryError) := none
  close : Option RegistryError := none
  pull : Option RegistryError := none
  /-- Pulls end in this error after at most so many frames. -/
  pullAfter : Option (Nat × RegistryError) := none
  get : Option RegistryError := none
  query : Option RegistryError := none
  delete : Option RegistryError := none
  addTag : Option RegistryError := none
  removeTag : Option RegistryError := none

namespace Faults

def guard {σ α : Type} (fault : Option RegistryError) (call : Call σ α) : Call σ α := fun s =>
  match fault with
  | some error => (.error error, s)
  | none => call s

def cutOff (fault : Option (Nat × RegistryError)) (stream : PullStream) : PullStream :=
  match fault with
  | none => stream
  | some (frames, error) => stream.take frames ++ [.error error]

end Faults

namespace Registry

variable {σ υ : Type}

/-- Sends are counted for each upload. A send that fails by its fault is not counted, one that the
registry itself refuses is. -/
def withFaults (r : Registry σ υ) (f : Faults) : Registry σ (υ × Nat) where
  label := "faulty"
  openUpload s :=
    match Faults.guard f.openUpload r.openUpload s with
    | (.error error, s) => (.error error, s)
    | (.ok upload, s) => (.ok (upload, 0), s)
  send frame upload s :=
    let forward :=
      let (answer, inner, s) := r.send frame upload.1 s
      (answer, (inner, upload.2 + 1), s)
    match f.send with
    | none => forward
    | some (position, error) => if upload.2 = position then (.error error, upload, s) else forward
  close upload s :=
    match f.close with
    | some error => (.error error, upload, s)
    | none =>
      let (answer, inner, s) := r.close upload.1 s
      (answer, (inner, upload.2), s)
  cancel upload s := r.cancel upload.1 s
  pull id s :=
    match Faults.guard f.pull (r.pull id) s with
    | (.error error, s) => (.error error, s)
    | (.ok stream, s) => (.ok (Faults.cutOff f.pullAfter stream), s)
  get id := Faults.guard f.get (r.get id)
  query q := Faults.guard f.query (r.query q)
  delete id := Faults.guard f.delete (r.delete id)
  addTag request := Faults.guard f.addTag (r.addTag request)
  removeTag request := Faults.guard f.removeTag (r.removeTag request)

end Registry

end Depot
