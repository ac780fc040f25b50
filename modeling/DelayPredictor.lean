import DelayPredictor.Lib.ReadThrough
import DelayPredictor.Observations
import DelayPredictor.Rebuild
import DelayPredictor.PredictionCache
import DelayPredictor.CacheKeys
import DelayPredictor.Buckets
import DelayPredictor.Vehicles
import DelayPredictor.BoundingBox
import DelayPredictor.Live
import DelayPredictor.Workers
import DelayPredictor.ModelStore
import DelayPredictor.ModelBackend
import DelayPredictor.ModelSaving
import DelayPredictor.Pipeline
import DelayPredictor.Calendar
import DelayPredictor.Readings
import DelayPredictor.StatedDelays
import DelayPredictor.Conditions
import DelayPredictor.RouteStats
import DelayPredictor.Holidays
import DelayPredictor.StaticLinks
import DelayPredictor.StaticBatches
import DelayPredictor.Coverage
import DelayPredictor.DepartureUpdates
import DelayPredictor.DelayViews
import DelayPredictor.FeedRanges
import DelayPredictor.Interleavings
import DelayPredictor.PipelineOrder
import DelayPredictor.StaticContents
import DelayPredictor.Redelivery
import DelayPredictor.Trips
import DelayPredictor.FeedHistory
import DelayPredictor.PredictionCalls
import DelayPredictor.Stops
import DelayPredictor.Retraining
import DelayPredictor.Retention
import DelayPredictor.Overlaps
