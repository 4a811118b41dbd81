import DistinctCount.Container.Basic

namespace DistinctCount.Container

def editSaver (c : Container) (p : Partition) (f : Saver → Saver) : Container :=
  { c with savers := assign c.savers p (f (c.savers.get p)) }

def saverTake (c : Container) (p : Partition) : Container :=
  let (batch, queue) := (c.queues.get p).pop c.config.saveBatch
  (c.alter (·.editQueue p fun _ => queue)).editSaver p fun s => { s with held := s.held ++ batch }

/-- A saver sends the first sketch it holds, or `none` when it has to wait for a place. -/
def saverSend? (c : Container) (p : Partition) : Option Container :=
  match (c.savers.get p).held with
  | [] => none
  | id :: held =>
    (c.channel.send? p id).map fun channel =>
      { c with channel }.editSaver p fun s => { s with held }

def saverWait (c : Container) (p : Partition) : Container :=
  { c with channel := c.channel.wait p }

/-- A saver gives back what it has not sent and ends. -/
def saverStop (c : Container) (p : Partition) : Container :=
  let held := (c.savers.get p).held
  let c := { c with channel := c.channel.leave p }
  (c.alter (·.editQueue p (·.requeue held))).editSaver p fun _ => { running := false }

/-- The container takes no more deletions. -/
def close (c : Container) : Container :=
  { c with closed := true }

def tellToStop (c : Container) : Container :=
  { c with stopping := true }

def saversRunning (c : Container) : Bool :=
  c.savers.toList.any (·.running)

/-- The writer begins its next write and answers the saver that gets the free place. -/
def writerTake? (c : Container) : Option (Option Partition × Container) :=
  (c.channel.receive?).map fun (id, granted, channel) =>
    (granted, { c with channel, job := some (c.begin id) })

def writerProceed (c : Container) (job : Job) (answer : Backend.Answer) : Progress × Container :=
  let (w, progress, notices) := c.toWriteBack.proceed job answer
  (progress, { c.inform w notices with job := progress.job? })

/-- A write that no task of the container makes goes on after an answer to its call. -/
def proceedAlone (c : Container) (job : Job) (answer : Backend.Answer) : Progress × Container :=
  let (w, progress, notices) := c.toWriteBack.proceed job answer
  (progress, c.inform w notices)

def beginDrain (c : Container) : Container :=
  { c with drain := some ({}, none) }

def drainProceed (c : Container) (drain : Drain) (job : Job) (answer : Backend.Answer) :
    Progress × Container :=
  let (w, progress, notices) := c.toWriteBack.proceed job answer
  (progress, { c.inform w notices with drain := some (drain, progress.job?) })

/-- The drain looks for its next write; at its end it answers how many writes it made. -/
def drainAdvance (c : Container) (drain : Drain) : Option Nat × Container :=
  match c.toWriteBack.drainStep drain with
  | .write id drain => (none, { c with drain := some (drain, some (c.begin id)) })
  | .advance w drain => (none, { c with toWriteBack := w, drain := some (drain, none) })
  | .finished written => (some written, { c with drain := none })

end DistinctCount.Container
