import DistinctCount.Config.Reader
import DistinctCount.Schedule.Run
import DistinctCount.Sketch.Text
import DistinctCount.Proofs.Backend.Serves
import DistinctCount.Proofs.Config.Backoff
import DistinctCount.Proofs.Container.Apart
import DistinctCount.Proofs.Container.Change
import DistinctCount.Proofs.Container.Client
import DistinctCount.Proofs.Container.Filed
import DistinctCount.Proofs.Container.Restore
import DistinctCount.Proofs.Drain.Settled
import DistinctCount.Proofs.Expiry.Pairs
import DistinctCount.Proofs.Hash.Murmur
import DistinctCount.Proofs.Schedule.OpenContainer
import DistinctCount.Proofs.Sketch.Text
import DistinctCount.Proofs.Slots.InPlace
import DistinctCount.Proofs.Slots.Writer
import DistinctCount.Proofs.System.Answer
import DistinctCount.Proofs.System.Clean
import DistinctCount.Proofs.System.Drained
import DistinctCount.Proofs.System.Durable
import DistinctCount.Proofs.System.Refines
import DistinctCount.Proofs.System.Restart
import DistinctCount.Proofs.System.Sorted
import DistinctCount.Proofs.System.Sweeps
import DistinctCount.Proofs.System.Enqueued
import DistinctCount.Proofs.System.Saver
import DistinctCount.Proofs.System.Batches
import DistinctCount.Proofs.Backend.Attempts
import DistinctCount.Proofs.WriteBack.Closes
import DistinctCount.Proofs.System.Writes
import DistinctCount.Proofs.System.Account
