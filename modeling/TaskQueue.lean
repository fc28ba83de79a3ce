import TaskQueue.Config.RedisAgreement
import TaskQueue.Config.RedisTls
import TaskQueue.Lib.JsonText
import TaskQueue.Storage.Migration
import TaskQueue.Worker.Absorbing
import TaskQueue.Worker.Deliveries
import TaskQueue.Worker.Emails
import TaskQueue.Worker.Receiver
import TaskQueue.Queue.JobId
import TaskQueue.Middleware.AdminAuth
import TaskQueue.Middleware.RateLimit
import TaskQueue.Service.Bookkeeping
import TaskQueue.Service.Correlation
import TaskQueue.Service.DepthReads
import TaskQueue.Http.Browser
import TaskQueue.Http.ClosedLoop
import TaskQueue.Http.Freshness
import TaskQueue.Http.Provenance
import TaskQueue.Http.Secrecy
import TaskQueue.Config.Written
import TaskQueue.Process.Lifecycle
import TaskQueue.Process.Deployment
import TaskQueue.Process.StartUp
import TaskQueue.Dashboard.Budget
import TaskQueue.Dashboard.Canonical
import TaskQueue.Dashboard.Evictions
import TaskQueue.Dashboard.Freshness
import TaskQueue.Dashboard.StatsRoute
import TaskQueue.Dashboard.Viewers
import TaskQueue.Logging.Passwords
import TaskQueue.Lib.Cutting
