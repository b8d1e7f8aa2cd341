import LadderMonitor.Document.Reading

namespace LadderMonitor

/-- The settings of the monitor; all are positive. -/
structure Settings where
  interval : Nat := 200
  /-- Ranges that are closer than this many bytes share a read. -/
  gapThreshold : Nat := 64
  /-- No read that joins ranges is longer than this many bytes. -/
  maxBatchSize : Nat := 512
  /-- No tick makes more reads than this. -/
  maxBatchesPerTick : Nat := 4
  /-- The bytes of device memory that are remembered. -/
  cacheSize : Nat := 65536
deriving DecidableEq, Repr

namespace Settings

def ofFields (fields : Fields) : Reading Settings :=
  mk <$> fields.optional ["interval_ms"] 200 Document.readPositive
    <*> fields.optional ["gap_threshold"] 64 Document.readPositive
    <*> fields.optional ["max_batch_size"] 512 Document.readPositive
    <*> fields.optional ["max_batches_per_tick"] 4 Document.readPositive
    <*> fields.optional ["cache_size"] 65536 Document.readPositive

def ofDocument : Document → Reading Settings := Document.readRecord "MonitorConfig" ofFields

/-- The interval in seconds, if a finite number is near it. -/
def intervalSeconds (s : Settings) : Except Fault Double :=
  let x := Double.ofRatio false s.interval 1000
  if x.isFinite then .ok x else .error .quotientTooLarge

end Settings

end LadderMonitor
